import FepParticipant.Result
import FepParticipant.Library.Reachability
import Mathlib.Tactic.Ring

/-! The external step trigger strategy: the trigger samples grant the simulation a validity, the worker
calls a step when the granted time covers it. -/
namespace FepParticipant.Timing
open Library List Option Int64

/-- The content of a sample of type `tFEP_StepTrigger`, in microseconds. -/
structure StepTrigger where
  currentTime : Int64
  validity : Int64

/-- `IUserDataSample`, with what the static codec reads from its memory. -/
structure UserDataSample where
  signalHandle : Nat
  decoded : Except Result StepTrigger

/-- Where `Work` stands. Between two of its positions the worker holds the mutex or reads the shutdown
semaphore once. -/
inductive TriggerPosition where
  | firstTick
  | firstWait
  | cycle
  | limitWait (thisCycle : Int64)
  | limitPassed (thisCycle : Int64)
  | sleeping (thisCycle : Int64)
  | ended
  deriving DecidableEq

structure ExternalStepTriggerStrategy where
  stepTriggerInputSignalHandle : Nat
  cycleTime : Int64
  nextCycleTimestamp : Int64
  runCycleLimit : Int64
  shutdown : Bool
  thread : Option TriggerPosition

namespace ExternalStepTriggerStrategy
variable (strategy : ExternalStepTriggerStrategy)

def new (stepTriggerInputSignalHandle : Nat) (cycleTime : Int64) : ExternalStepTriggerStrategy :=
  ⟨stepTriggerInputSignalHandle,cycleTime,-1,0,false,none⟩

def start : ExternalStepTriggerStrategy :=
  { strategy with
    nextCycleTimestamp := -1, runCycleLimit := 0, shutdown := false, thread := some .firstTick }

/-- `Stop` up to the join: the shutdown semaphore is set if there is a thread. -/
def stop : ExternalStepTriggerStrategy := {strategy with shutdown := strategy.shutdown || strategy.thread.isSome}

/-- The rest of `Stop`, once the worker has ended. -/
def join : ExternalStepTriggerStrategy := {strategy with thread := none, shutdown := false}

def triggerOf (sample : UserDataSample) : Option StepTrigger :=
  if sample.signalHandle = strategy.stepTriggerInputSignalHandle then sample.decoded.toOption else none

def grant (trigger : StepTrigger) : ExternalStepTriggerStrategy :=
  { strategy with
    nextCycleTimestamp := if strategy.nextCycleTimestamp < 0 then trigger.currentTime else strategy.nextCycleTimestamp
    runCycleLimit := trigger.currentTime + trigger.validity }

def update (sample : Option UserDataSample) :
    ExternalStepTriggerStrategy × Result :=
  match sample with
  | none => (strategy,.errNoError)
  | some sample =>
    if sample.signalHandle = strategy.stepTriggerInputSignalHandle then
      match sample.decoded with
      | .error result => (strategy,result)
      | .ok trigger => (strategy.grant trigger,.errNoError)
    else (strategy,.errNoError)

/-- The worker goes on from `position`. A wait ends by time-out or, with `noTimeout`, by a notification or spurious
wake-up. The last value is the time passed to `doCall`. -/
def work (position : TriggerPosition) (noTimeout : Bool) :
    ExternalStepTriggerStrategy × Option Int64 :=
  match position with
  | .firstTick => ({strategy with thread := some (if strategy.shutdown then .cycle else .firstWait)},none)
  | .firstWait =>
    ({ strategy with
        thread := some (if noTimeout ∨ 0 ≤ strategy.nextCycleTimestamp then .cycle else .firstTick) },none)
  | .cycle =>
    if strategy.shutdown then ({strategy with thread := some .ended},none)
    else
      let thisCycle := strategy.nextCycleTimestamp
      ({ strategy with
          nextCycleTimestamp := thisCycle + strategy.cycleTime
          thread := some (if strategy.runCycleLimit ≤ thisCycle then .limitWait thisCycle
            else .limitPassed thisCycle) },none)
  | .limitWait thisCycle =>
    ({ strategy with
        thread := some (if noTimeout ∨ strategy.shutdown ∨ ¬strategy.runCycleLimit ≤ thisCycle
          then .limitPassed thisCycle else .limitWait thisCycle) },none)
  | .limitPassed thisCycle =>
    ({strategy with thread := some (if strategy.shutdown then .ended else .sleeping thisCycle)},none)
  | .sleeping thisCycle => ({strategy with thread := some .cycle},some thisCycle)
  | .ended => (strategy,none)

end ExternalStepTriggerStrategy

/-- What can happen next to a strategy. -/
inductive TriggerEvent where
  | start
  | stop
  | join
  | update (sample : Option UserDataSample)
  | work (noTimeout : Bool)

/-- A strategy with the triggers received and the calls made since the last start; a call stands with the latest
trigger the worker knew. -/
structure ObservedStrategy where
  strategy : ExternalStepTriggerStrategy
  received : List StepTrigger
  granted : Option StepTrigger
  called : List (Int64 × Option StepTrigger)

namespace ObservedStrategy
open ExternalStepTriggerStrategy

def new (stepTriggerInputSignalHandle : Nat) (cycleTime : Int64) : ObservedStrategy :=
  ⟨.new stepTriggerInputSignalHandle cycleTime,[],none,[]⟩

/-- The worker's decision is its step to `limitPassed`. -/
def observeWork (observed : ObservedStrategy) (result : ExternalStepTriggerStrategy × Option Int64) :
    ObservedStrategy where
  strategy := result.1
  received := observed.received
  granted := match result.1.thread with
    | some (.limitPassed _) => observed.received.getLast?
    | _ => observed.granted
  called := observed.called ++ (result.2.map fun time => (time,observed.granted)).toList

/-- A run starts with a new thread and ends when it is joined; the calls of a run stay until the next. -/
def step (observed : ObservedStrategy) : TriggerEvent → Option ObservedStrategy
  | .start => if observed.strategy.thread = none then some ⟨observed.strategy.start,[],none,[]⟩ else none
  | .stop => some {observed with strategy := observed.strategy.stop}
  | .join =>
    if observed.strategy.thread = some .ended then some {observed with strategy := observed.strategy.join}
    else none
  | .update sample => some { observed with
      strategy := (observed.strategy.update sample).1
      received := observed.received ++
        if observed.strategy.thread = none then []
        else (sample.bind observed.strategy.triggerOf).toList }
  | .work noTimeout =>
    observed.strategy.thread.map fun position => observed.observeWork (observed.strategy.work position noTimeout)

/-- The `k`-th call of a run is due at the time of its first trigger and `k` cycles. -/
def Due (observed : ObservedStrategy) (k : Nat) (time : Int64) : Prop :=
  ∃ first ∈ observed.received.head?, 0 ≤ first.currentTime ∧
    time.toInt = first.currentTime.toInt + k * observed.strategy.cycleTime.toInt

def Covered (granted : Option StepTrigger) (time : Int64) : Prop :=
  ∃ trigger ∈ granted, time.toInt < trigger.currentTime.toInt + trigger.validity.toInt

/-- The calls are one cycle apart from the time of the run's first trigger on, and each is within the validity
granted when it was decided. -/
def WithinValidity (observed : ObservedStrategy) : Prop :=
  ∀ k time granted, observed.called[k]? = some (time,granted) → observed.Due k time ∧ Covered granted time

/-- A run stays within the granted validity as long as no wait ends by a notification too early, the first trigger
has no negative time and no sum passes 64 bits. -/
def Careful (observed : ObservedStrategy) : TriggerEvent → Prop
  | .start | .stop | .join => True
  | .update sample => observed.strategy.thread ≠ none →
      ∀ trigger ∈ sample.bind observed.strategy.triggerOf,
        (observed.strategy.nextCycleTimestamp < 0 → 0 ≤ trigger.currentTime) ∧
        (trigger.currentTime + trigger.validity).toInt ≤ trigger.currentTime.toInt + trigger.validity.toInt
  | .work noTimeout => match observed.strategy.thread with
    | some .firstWait => noTimeout = true → 0 ≤ observed.strategy.nextCycleTimestamp
    | some .cycle => observed.strategy.shutdown = false →
        observed.strategy.nextCycleTimestamp.toInt + observed.strategy.cycleTime.toInt < 2 ^ 63
    | some (.limitWait thisCycle) => noTimeout = true → thisCycle < observed.strategy.runCycleLimit
    | _ => True

section Invariant

/-- The cycles a worker has begun and not called yet. -/
def begunAt : Option TriggerPosition → Nat
  | some (.limitWait _) | some (.limitPassed _) | some (.sleeping _) => 1
  | _ => 0

/-- The number of cycles the worker has begun in this run. -/
def begun (observed : ObservedStrategy) : Nat := observed.called.length + begunAt observed.strategy.thread

/-- What the next instant and the limit say about the triggers received. -/
structure Granting (observed : ObservedStrategy) : Prop where
  next : (observed.received = [] ∧ observed.strategy.nextCycleTimestamp < 0 ∧ observed.begun = 0) ∨
    observed.Due observed.begun observed.strategy.nextCycleTimestamp
  limit : ∀ trigger ∈ observed.received.getLast?,
    observed.strategy.runCycleLimit.toInt ≤ trigger.currentTime.toInt + trigger.validity.toInt

/-- What the worker relies on at its position. A worker that is to end makes no call but the one it is about to make
(`sleeping`). -/
def Position (observed : ObservedStrategy) : Option TriggerPosition → Prop
  | some .cycle => observed.strategy.shutdown = false → 0 ≤ observed.strategy.nextCycleTimestamp
  | some (.limitWait thisCycle) => observed.strategy.shutdown = false → observed.Due observed.called.length thisCycle
  | some (.limitPassed thisCycle) => observed.strategy.shutdown = false →
      observed.Due observed.called.length thisCycle ∧ Covered observed.granted thisCycle
  | some (.sleeping thisCycle) => observed.Due observed.called.length thisCycle ∧ Covered observed.granted thisCycle
  | none | some .firstTick | some .firstWait | some .ended => True

structure Inv (observed : ObservedStrategy) (cycleTime : Int64) : Prop where
  cycleTime_eq : observed.strategy.cycleTime = cycleTime
  called : observed.WithinValidity
  granting : observed.strategy.thread ≠ none → observed.strategy.shutdown = false → observed.Granting
  position : observed.Position observed.strategy.thread

variable {observed after : ObservedStrategy} {cycleTime time : Int64} {k : Nat}
  {noTimeout : Bool}

section
variable (h : observed.Due k time)
include h

theorem Due.of_append {more : List StepTrigger} (hreceived : after.received = observed.received ++ more)
    (hcycle : after.strategy.cycleTime = observed.strategy.cycleTime) : after.Due k time := by
  obtain ⟨first,hfirst,hnonneg,htime⟩ := h
  refine ⟨first,?_,hnonneg,?_⟩
  · rw [hreceived,head?_append,mem_def.mp hfirst]
    rfl
  · rw [hcycle]
    exact htime

theorem Due.received_ne_nil : observed.received ≠ [] := by
  obtain ⟨first,hfirst,_⟩ := h
  intro hnil
  rw [hnil] at hfirst
  cases hfirst

theorem Due.nonneg (hcycle : 0 < observed.strategy.cycleTime) : 0 ≤ time := by
  obtain ⟨first,_,hnonneg,htime⟩ := h
  have hstep : 0 ≤ (k : Int) * observed.strategy.cycleTime.toInt :=
    Int.mul_nonneg (Int.natCast_nonneg k) (Int.le_of_lt (Int64.lt_iff_toInt_lt.mp hcycle))
  have hfirst := le_iff_toInt_le.mp hnonneg
  refine le_iff_toInt_le.mpr ?_
  omega

theorem Due.succ (hcycle : 0 < observed.strategy.cycleTime)
    (hbound : time.toInt + observed.strategy.cycleTime.toInt < 2 ^ 63) :
    observed.Due (k + 1) (time + observed.strategy.cycleTime) := by
  have hnonneg := le_iff_toInt_le.mp (h.nonneg hcycle)
  have hpos := Int64.lt_iff_toInt_lt.mp hcycle
  have hsum : (time + observed.strategy.cycleTime).toInt = time.toInt + observed.strategy.cycleTime.toInt := by
    rw [toInt_add]
    exact Int.bmod_eq_of_le (by simp at hnonneg hpos ⊢; omega) (by simp; omega)
  obtain ⟨first,hfirst,hfirstNonneg,htime⟩ := h
  refine ⟨first,hfirst,hfirstNonneg,?_⟩
  rw [hsum,htime]
  push_cast
  ring

end

theorem WithinValidity.of_append {more : List StepTrigger} (h : observed.WithinValidity)
    (hreceived : after.received = observed.received ++ more)
    (hcycle : after.strategy.cycleTime = observed.strategy.cycleTime)
    (hcalled : after.called = observed.called) : after.WithinValidity := by
  intro k time granted hcall
  rw [hcalled] at hcall
  obtain ⟨hdue,hcovered⟩ := h k time granted hcall
  exact ⟨hdue.of_append hreceived hcycle,hcovered⟩

theorem Granting.covered (h : observed.Granting) (hne : observed.received ≠ [])
    (hlt : ¬observed.strategy.runCycleLimit ≤ time) : Covered observed.received.getLast? time := by
  have hlast := getLast?_eq_some_getLast hne
  refine ⟨observed.received.getLast hne,hlast,?_⟩
  have hlimit := h.limit _ hlast
  have hbelow := Int64.lt_iff_toInt_lt.mp (Int64.not_le.mp hlt)
  omega

def grantAt (observed : ObservedStrategy) : Option TriggerPosition → Option StepTrigger
  | some (.limitPassed _) => observed.received.getLast?
  | _ => observed.granted

theorem observeWork_none (strategy : ExternalStepTriggerStrategy) : observed.observeWork (strategy,none) =
      ⟨strategy,observed.received,observed.grantAt strategy.thread,observed.called⟩ := by
  simp only [observeWork,grantAt,map_none,toList_none,append_nil]

section
variable (h : observed.Inv cycleTime)
include h

theorem inv_moved {origin : TriggerPosition} (position : TriggerPosition)
    (hwork : observed.strategy.work origin noTimeout = ({observed.strategy with thread := some position},none))
    (hthread : observed.strategy.thread = some origin)
    (hbegun : observed.strategy.shutdown = false → begunAt (some position) = begunAt (some origin))
    (hposition : {observed with granted := observed.grantAt (some position)}.Position (some position)) :
    (observed.observeWork (observed.strategy.work origin noTimeout)).Inv cycleTime := by
  rw [hwork,observeWork_none]
  refine ⟨h.cycleTime_eq,h.called,?_,?_⟩
  · intro _ hrunning
    obtain ⟨hnext,hlimit⟩ := h.granting (by simp [hthread]) hrunning
    refine ⟨?_,hlimit⟩
    rw [begun,hthread,← hbegun hrunning] at hnext
    exact hnext
  · cases position <;> exact hposition

theorem inv_cycle (hcycle : 0 < cycleTime)
    (hthread : observed.strategy.thread = some .cycle) (hcareful : observed.Careful (.work noTimeout)) :
    (observed.observeWork (observed.strategy.work .cycle noTimeout)).Inv cycleTime := by
  by_cases hshutdown : observed.strategy.shutdown
  · exact inv_moved h .ended (by simp [work,hshutdown]) hthread (fun _ => rfl) trivial
  have hrunning : observed.strategy.shutdown = false := by simpa using hshutdown
  obtain ⟨rfl,hcalled,hgranting,hposition⟩ := h
  rw [hthread] at hposition
  simp only [Careful,hthread] at hcareful
  have hgrant := hgranting (by simp [hthread]) hrunning
  have hbegun : observed.begun = observed.called.length := by simp [begun,begunAt,hthread]
  have hdue : observed.Due observed.called.length observed.strategy.nextCycleTimestamp := by
    rcases hgrant.next with ⟨_,hneg,_⟩ | hdue
    · exact absurd (hposition hrunning) (Int64.not_le.mpr hneg)
    · rwa [hbegun] at hdue
  have hlater := hdue.succ hcycle (hcareful hrunning)
  by_cases hlimit : observed.strategy.runCycleLimit ≤ observed.strategy.nextCycleTimestamp
  · have hwork : observed.strategy.work .cycle noTimeout = ({ observed.strategy with
        nextCycleTimestamp := observed.strategy.nextCycleTimestamp + observed.strategy.cycleTime
        thread := some (.limitWait observed.strategy.nextCycleTimestamp) },none) := by
      simp [work,hrunning,hlimit]
    rw [hwork,observeWork_none]
    exact ⟨rfl,hcalled,fun _ _ => ⟨.inr hlater,hgrant.limit⟩,fun _ => hdue⟩
  · have hwork : observed.strategy.work .cycle noTimeout = ({ observed.strategy with
        nextCycleTimestamp := observed.strategy.nextCycleTimestamp + observed.strategy.cycleTime
        thread := some (.limitPassed observed.strategy.nextCycleTimestamp) },none) := by
      simp [work,hrunning,hlimit]
    rw [hwork,observeWork_none]
    exact ⟨rfl,hcalled,fun _ _ => ⟨.inr hlater,hgrant.limit⟩,
      fun _ => ⟨hdue,hgrant.covered hdue.received_ne_nil hlimit⟩⟩

theorem inv_call {thisCycle : Int64} (hcycle : 0 < cycleTime)
    (hthread : observed.strategy.thread = some (.sleeping thisCycle)) :
    (observed.observeWork (observed.strategy.work (.sleeping thisCycle) noTimeout)).Inv cycleTime := by
  obtain ⟨rfl,hcalled,hgranting,hposition⟩ := h
  rw [hthread] at hposition
  obtain ⟨hdue,hcovered⟩ := hposition
  have hbegun : observed.begun = observed.called.length + 1 := by simp [begun,begunAt,hthread]
  refine ⟨rfl,?_,?_,?_⟩
  · intro k time granted hcall
    change (observed.called ++ [(thisCycle,observed.granted)])[k]? = some (time,granted) at hcall
    rcases Nat.lt_or_ge k observed.called.length with hlt | hge
    · rw [getElem?_append_left hlt] at hcall
      exact hcalled k time granted hcall
    · rw [getElem?_append_right hge,getElem?_singleton] at hcall
      split at hcall
      · next hzero =>
        obtain rfl : k = observed.called.length := by omega
        cases hcall
        exact ⟨hdue,hcovered⟩
      · cases hcall
  · intro _ hrunning
    obtain ⟨hnext,hlimit⟩ := hgranting (by simp [hthread]) hrunning
    refine ⟨?_,hlimit⟩
    rw [hbegun] at hnext
    simpa [begun,begunAt,observeWork,work,Due] using hnext
  · intro hrunning
    have hnext := (hgranting (by simp [hthread]) hrunning).next
    rcases hnext with ⟨hnil,_⟩ | hnext
    · exact absurd hnil hdue.received_ne_nil
    · exact hnext.nonneg hcycle

theorem inv_work {position : TriggerPosition} (hcycle : 0 < cycleTime)
    (hthread : observed.strategy.thread = some position) (hcareful : observed.Careful (.work noTimeout)) :
    (observed.observeWork (observed.strategy.work position noTimeout)).Inv cycleTime := by
  have hposition := h.position
  rw [hthread] at hposition
  simp only [Careful,hthread] at hcareful
  cases position with
  | firstTick =>
    by_cases hshutdown : observed.strategy.shutdown
    · exact inv_moved h .cycle (by simp [work,hshutdown]) hthread (fun _ => rfl)
        fun hrunning => by simp [hshutdown] at hrunning
    · exact inv_moved h .firstWait (by simp [work,hshutdown]) hthread (fun _ => rfl) trivial
  | firstWait =>
    by_cases hnext : 0 ≤ observed.strategy.nextCycleTimestamp
    · exact inv_moved h .cycle (by simp [work,hnext]) hthread (fun _ => rfl) fun _ => hnext
    · -- only a time-out can have ended this wait
      have htimeout : noTimeout = false := by simpa using mt hcareful hnext
      exact inv_moved h .firstTick (by simp [work,htimeout,hnext]) hthread (fun _ => rfl) trivial
  | cycle => exact inv_cycle h hcycle hthread (by simpa only [Careful,hthread] using hcareful)
  | limitWait thisCycle =>
    by_cases hshutdown : observed.strategy.shutdown
    · exact inv_moved h (.limitPassed thisCycle) (by simp [work,hshutdown]) hthread (fun _ => rfl)
        fun hrunning => by simp [hshutdown] at hrunning
    have hrunning : observed.strategy.shutdown = false := by simpa using hshutdown
    have hdue := hposition hrunning
    by_cases hlimit : observed.strategy.runCycleLimit ≤ thisCycle
    · have htimeout : noTimeout = false := by simpa using mt hcareful (Int64.not_lt.mpr hlimit)
      exact inv_moved h (.limitWait thisCycle) (by simp [work,hrunning,htimeout,hlimit]) hthread
        (fun _ => rfl) fun _ => hdue
    · have hgrant := h.granting (by simp [hthread]) hrunning
      exact inv_moved h (.limitPassed thisCycle) (by simp [work,hlimit]) hthread (fun _ => rfl)
        fun _ => ⟨hdue,hgrant.covered hdue.received_ne_nil hlimit⟩
  | limitPassed thisCycle =>
    by_cases hshutdown : observed.strategy.shutdown
    · exact inv_moved h .ended (by simp [work,hshutdown]) hthread
        (fun hrunning => by simp [hshutdown] at hrunning) trivial
    · have hrunning : observed.strategy.shutdown = false := by simpa using hshutdown
      exact inv_moved h (.sleeping thisCycle) (by simp [work,hrunning]) hthread (fun _ => rfl) (hposition hrunning)
  | sleeping thisCycle => exact inv_call h hcycle hthread
  | ended => exact inv_moved h .ended (by simp [work,← hthread]) hthread (fun _ => rfl) trivial

end

theorem update_eq (strategy : ExternalStepTriggerStrategy) (sample : Option UserDataSample) :
    (strategy.update sample).1 = ((sample.bind strategy.triggerOf).map strategy.grant).getD strategy := by
  cases sample with
  | none => rfl
  | some sample =>
    simp only [update,bind_some,triggerOf]
    split
    · cases sample.decoded <;> rfl
    · rfl

def receive (observed : ObservedStrategy) (trigger : StepTrigger) : ObservedStrategy :=
  {observed with strategy := observed.strategy.grant trigger, received := observed.received ++ [trigger]}

private theorem Granting.receive {trigger : StepTrigger} (h : observed.Granting)
    (hcycle : 0 < observed.strategy.cycleTime)
    (hfirst : observed.strategy.nextCycleTimestamp < 0 → 0 ≤ trigger.currentTime)
    (hsum : (trigger.currentTime + trigger.validity).toInt ≤
      trigger.currentTime.toInt + trigger.validity.toInt) : (observed.receive trigger).Granting := by
  refine ⟨.inr ?_,?_⟩
  · rcases h.next with ⟨hnil,hneg,hbegun⟩ | hdue
    · have hnext : (observed.receive trigger).strategy.nextCycleTimestamp = trigger.currentTime := by
        simp [ObservedStrategy.receive,grant,hneg]
      refine ⟨trigger,by simp [ObservedStrategy.receive,hnil],hfirst hneg,?_⟩
      rw [hnext,show (observed.receive trigger).begun = 0 from hbegun]
      simp
    · have hnonneg := Int64.not_lt.mpr (hdue.nonneg hcycle)
      have hnext : (observed.receive trigger).strategy.nextCycleTimestamp = observed.strategy.nextCycleTimestamp := by
        simp [ObservedStrategy.receive,grant,hnonneg]
      rw [hnext]
      exact hdue.of_append rfl rfl
  · intro last hlast
    simp only [ObservedStrategy.receive,getLast?_append,getLast?_singleton,some_or,mem_some] at hlast
    subst hlast
    exact hsum

theorem inv_receive {trigger : StepTrigger} (h : observed.Inv cycleTime) (hcycle : 0 < cycleTime)
    (hthread : observed.strategy.thread ≠ none)
    (hfirst : observed.strategy.nextCycleTimestamp < 0 → 0 ≤ trigger.currentTime)
    (hsum : (trigger.currentTime + trigger.validity).toInt ≤
      trigger.currentTime.toInt + trigger.validity.toInt) : (observed.receive trigger).Inv cycleTime := by
  obtain ⟨rfl,hcalled,hgranting,hposition⟩ := h
  refine ⟨rfl,hcalled.of_append rfl rfl rfl,?_,?_⟩
  · intro _ hrunning
    exact (hgranting hthread hrunning).receive hcycle hfirst hsum
  · change (observed.receive trigger).Position observed.strategy.thread
    generalize observed.strategy.thread = thread at hposition
    have hdue {time : Int64} (hdue : observed.Due observed.called.length time) :
        (observed.receive trigger).Due observed.called.length time := hdue.of_append rfl rfl
    match thread with
    | some .cycle =>
      intro hrunning
      have hnonneg := hposition hrunning
      simpa [ObservedStrategy.receive,grant,Int64.not_lt.mpr hnonneg] using hnonneg
    | some (.limitWait thisCycle) => exact fun hrunning => hdue (hposition hrunning)
    | some (.limitPassed thisCycle) => exact fun hrunning => ⟨hdue (hposition hrunning).1,(hposition hrunning).2⟩
    | some (.sleeping thisCycle) => exact ⟨hdue hposition.1,hposition.2⟩
    | none | some .firstTick | some .firstWait | some .ended => trivial

theorem inv_new (stepTriggerInputSignalHandle : Nat) (cycleTime : Int64) :
    (ObservedStrategy.new stepTriggerInputSignalHandle cycleTime).Inv cycleTime :=
  ⟨rfl,fun _ _ _ hcall => by simp [ObservedStrategy.new] at hcall,fun hthread => absurd rfl hthread,trivial⟩

private theorem inv_stop (h : observed.Inv cycleTime) :
    Inv {observed with strategy := observed.strategy.stop} cycleTime := by
  refine ⟨h.cycleTime_eq,h.called,fun hthread hrunning => ?_,?_⟩
  · cases hnone : observed.strategy.thread with
    | none => exact absurd hnone hthread
    | some position => simp [ExternalStepTriggerStrategy.stop,hnone] at hrunning
  · change Position _ observed.strategy.thread
    have hposition := h.position
    cases hthread : observed.strategy.thread with
    | none => trivial
    | some position =>
      have hstopped : (observed.strategy.stop).shutdown = true := by
        simp [ExternalStepTriggerStrategy.stop,hthread]
      rw [hthread] at hposition
      cases position with
      | sleeping thisCycle => exact hposition
      | firstTick | firstWait | ended => trivial
      | cycle | limitWait | limitPassed =>
        exact fun hrunning => absurd (hstopped.symm.trans hrunning) Bool.noConfusion

theorem inv_step {event : TriggerEvent} (h : observed.Inv cycleTime) (hcycle : 0 < cycleTime)
    (hcareful : observed.Careful event) (hstep : observed.step event = some after) : after.Inv cycleTime := by
  cases event with
  | start =>
    simp only [step] at hstep
    split at hstep
    · cases hstep
      refine ⟨h.cycleTime_eq,fun _ _ _ hcall => by simp at hcall,fun _ _ => ⟨.inl ?_,?_⟩,trivial⟩
      · exact ⟨rfl,by simp [ExternalStepTriggerStrategy.start],rfl⟩
      · intro trigger hlast
        cases hlast
    · cases hstep
  | stop =>
    cases hstep
    exact inv_stop h
  | join =>
    simp only [step] at hstep
    split at hstep
    · cases hstep
      exact ⟨h.cycleTime_eq,h.called,fun hthread => absurd rfl hthread,trivial⟩
    · cases hstep
  | update sample =>
    cases hstep
    simp only [update_eq]
    cases htrigger : sample.bind observed.strategy.triggerOf with
    | none => simpa using h
    | some trigger =>
      by_cases hthread : observed.strategy.thread = none
      · have hgranted : (observed.strategy.grant trigger).thread = none := hthread
        simp only [hthread,if_true,append_nil,map_some,getD_some]
        refine ⟨h.cycleTime_eq,h.called,fun hne => absurd hgranted hne,?_⟩
        rw [hgranted]
        trivial
      · obtain ⟨hfirst,hsum⟩ := hcareful hthread trigger htrigger
        simpa [hthread,receive] using inv_receive h hcycle hthread hfirst hsum
  | work noTimeout =>
    obtain ⟨position,hthread,rfl⟩ := map_eq_some_iff.mp hstep
    exact inv_work h hcycle hthread hcareful

end Invariant

/-- In every run of careful events, with any starts and stops, the calls follow the first trigger cycle by cycle and
stay within the validity granted when they were decided. -/
theorem called_within_validity (stepTriggerInputSignalHandle : Nat) {cycleTime : Int64} (hcycle : 0 < cycleTime)
    {observed : ObservedStrategy} (hrun : Reaches step Careful (new stepTriggerInputSignalHandle cycleTime) observed) :
    observed.WithinValidity := by
  have hinv : observed.Inv cycleTime :=
    hrun.invariant (inv_new stepTriggerInputSignalHandle cycleTime) fun _ _ _ h hcareful hstep =>
      inv_step h hcycle hcareful hstep
  exact hinv.called

instance (observed : ObservedStrategy) (event : TriggerEvent) : Decidable (observed.Careful event) :=
  match event with
  | .start | .stop | .join => .isTrue trivial
  | .update _ => inferInstanceAs (Decidable (_ → ∀ trigger ∈ _, _))
  | .work _ => by
    unfold Careful
    exact match observed.strategy.thread with
    | some .firstWait | some .cycle | some (.limitWait _) => inferInstanceAs (Decidable (_ → _))
    | none | some .firstTick | some (.limitPassed _) | some (.sleeping _) | some .ended => .isTrue trivial

/-- Two cycles of 10 µs. The second waits for its grant. -/
def grantedRun : List TriggerEvent :=
  [.start,.work false,.update (some ⟨0,.ok ⟨0,5⟩⟩),.work true,.work false,.work false,.work false,
    .work false,.update (some ⟨0,.ok ⟨10,5⟩⟩),.work true,.work false,.work false]

/-- The steps that are granted are called. -/
theorem granted_steps_called : ∃ observed, Reaches step Careful (new 0 10) observed ∧
      observed.called = [(0,some ⟨0,5⟩),(10,some ⟨10,5⟩)] ∧ observed.WithinValidity := by
  have hrun : runAllowed step Careful (new 0 10) grantedRun = some _ := rfl
  have hreaches := reaches_of_runAllowed hrun
  exact ⟨_,hreaches,rfl,called_within_validity 0 (by decide) hreaches⟩

/-- The second trigger extends the limit to 10 µs only. Its notification ends the wait for the next step,
which is called at 10 µs. -/
def extendedRun : List TriggerEvent :=
  [.start,.work false,.update (some ⟨0,.ok ⟨0,5⟩⟩),.work true,.work false,.work false,.work false,
    .work false,.update (some ⟨0,.ok ⟨5,5⟩⟩),.work true,.work false,.work false]

/-- A wait that was notified does not look at the limit again. -/
theorem notified_wait_passes_limit :
    ¬∀ (cycleTime : Int64), 0 < cycleTime → ∀ observed, Reaches step anyAction (new 0 cycleTime) observed →
      observed.WithinValidity := by
  intro hall
  have hrun : runActions step (new 0 10) extendedRun = some _ := rfl
  have hwithin := hall 10 (by decide) _ (reaches_of_runActions hrun)
  obtain ⟨_,trigger,htrigger,hlt⟩ := hwithin 1 10 (some ⟨5,5⟩) rfl
  cases htrigger
  exact absurd hlt (by decide)

end ObservedStrategy
end FepParticipant.Timing
