import FepParticipant.Timing.TaskThread

/-! Which simulation time an execution of a task's callback gets: its own, as long as no tick writes another before the
step has read it. -/
namespace FepParticipant.Timing
open DataAccess Library CountingSemaphore List Option

/-- The times a position of the worker thread stands for that are not on record as executed. -/
def TaskPosition.ownTimes (current : Int) : TaskPosition → List Int
  | .behindBarrier | .locked => [current]
  | .timeRead time | .validating time => [time]
  | .loopHead | .waiting | .computing _ | .acknowledging .. | .finished => []

def TickPosition.time : TickPosition → Option Int
  | .idle => none
  | .isTaskWorking time | .applyTriggerViolation time | .notifyBarrier time => some time

/-- The execution the worker thread is in or has just left. -/
def TaskPosition.execution : TaskPosition → Option Int
  | .computing time | .acknowledging time _ => some time
  | .loopHead | .waiting | .behindBarrier | .locked | .timeRead _ | .validating _ | .finished => none

namespace TaskThread

variable {S : Type} [CountingSemaphore S]

/-- No further execution can begin. -/
def ended (thread : TaskThread S) : Bool := decide (thread.lifetime = .destroyed) || thread.shutdown

def pendingSteps (thread : TaskThread S) : Nat :=
  count thread.task.barrier + match thread.worker with
    | .behindBarrier | .locked => 1
    | _ => 0

/-- Each execution got the time of the tick that fired it, and so did its acknowledgement. -/
structure StepsOwnTime (thread : TaskThread S) : Prop where
  executed (k : Nat) (time : Int) : thread.executed[k]? = some time → thread.fired[k]? = some time
  acknowledged (k : Nat) (ack : TriggerAck) : (k,ack) ∈ thread.acknowledged →
    thread.executed[k]? = some ack.currSimTime

/-- The step that is being validated is not given up because of its inputs. -/
def inputsAccepted (thread : TaskThread S) (wait : StepDataAccess.Wait) : Bool :=
  match thread.worker with
  | .validating time => thread.shutdown || isOk (thread.dataAccess.validateInputs time wait).2.1
  | _ => true

/-- No tick brings another time while a fired step has not read its own, and no step is given up in a run that goes
on. -/
def OwnTimeKept (thread : TaskThread S) : TaskAction → Prop
  | .simTimeProgress _ currSimTime =>
    thread.ended = true ∨ thread.pendingSteps = 0 ∨ currSimTime = thread.task.currentSimulationTime
  | .threadFunc answers => thread.inputsAccepted answers.wait = true
  | .create | .destroy | .tickHandler => True

/-- A thread that is being destroyed has its shutdown semaphore set, and it is joined at the end. -/
structure Closing (thread : TaskThread S) : Prop where
  notified : thread.lifetime = .shutdownNotified ∨ thread.lifetime = .barrierNotified → thread.shutdown = true
  joined : thread.lifetime = .destroyed → thread.worker = .finished

/-- The times on record, the one the worker thread holds and one for each token of the barrier. -/
structure OwnTimeInv (thread : TaskThread S) : Prop where
  closing : thread.Closing
  executed : thread.executed <+: thread.fired
  validating {time : Int} : thread.worker = .validating time → thread.executed ++ [time] <+: thread.fired
  tick {time : Int} : thread.tick.time = some time → time = thread.task.currentSimulationTime
  fired : thread.ended = false → thread.fired = thread.executed ++
    thread.worker.ownTimes thread.task.currentSimulationTime ++
    List.replicate (count thread.task.barrier) thread.task.currentSimulationTime
  execution {time : Int} : thread.worker.execution = some time → thread.executed.getLast? = some time
  acknowledged {k : Nat} {ack : TriggerAck} : (k,ack) ∈ thread.acknowledged →
    thread.executed[k]? = some ack.currSimTime

variable {thread thread' : TaskThread S}

theorem getElem?_append_of_some {times more : List Int} {k : Nat} {time : Int}
    (h : times[k]? = some time) : (times ++ more)[k]? = some time := by
  rw [getElem?_append_left (List.getElem?_eq_some_iff.mp h).1,h]

omit [CountingSemaphore S] in
theorem ownTimes_eq_of_time {current time : Int} {position : TaskPosition}
    (h : position ≠ .behindBarrier) (h' : position ≠ .locked) : position.ownTimes current = position.ownTimes time := by
  cases position with
  | behindBarrier => exact absurd rfl h
  | locked => exact absurd rfl h'
  | _ => rfl

theorem isSet_notify (s : S) : isSet (notify s) = true := by
  rw [isSet_iff,count_notify]
  exact Nat.succ_pos _

theorem applyTriggerViolation_keeps (task : Task S) : ∃ semaphore,
    task.applyTriggerViolation.1 = {task with threadShutdownSemaphore := semaphore} ∧
      (isSet task.threadShutdownSemaphore = true → isSet semaphore = true) := by
  unfold Task.applyTriggerViolation
  split
  · exact ⟨_,rfl,id⟩
  · exact ⟨_,rfl,id⟩
  · exact ⟨_,rfl,id⟩
  · exact ⟨_,rfl,id⟩
  · exact ⟨_,rfl,fun _ => isSet_notify _⟩

theorem applyTimeViolationStrat_keeps (task : Task S) : ∃ semaphore,
    task.applyTimeViolationStrat.1 = {task with threadShutdownSemaphore := semaphore} ∧
      (isSet task.threadShutdownSemaphore = true → isSet semaphore = true) := by
  unfold Task.applyTimeViolationStrat
  split
  · exact ⟨_,rfl,id⟩
  · exact ⟨_,rfl,id⟩
  · exact ⟨_,rfl,id⟩
  · exact ⟨_,rfl,id⟩
  · exact ⟨_,rfl,fun _ => isSet_notify _⟩

theorem OwnTimeInv.of_frame (h : OwnTimeInv thread) (hclosing : thread'.Closing)
    (hexecuted : thread'.executed = thread.executed)
    (hfired : thread'.fired = thread.fired) (hacknowledged : thread'.acknowledged = thread.acknowledged)
    (htime : thread'.task.currentSimulationTime = thread.task.currentSimulationTime)
    (htick : ∀ time, thread'.tick.time = some time → thread.tick.time = some time)
    (hvalidating : ∀ time, thread'.worker = .validating time →
      thread.worker = .validating time ∨ (thread.worker = .timeRead time ∧ thread.ended = false))
    (hexecution : ∀ time, thread'.worker.execution = some time → thread.worker.execution = some time)
    (hpending : thread'.ended = false → thread.ended = false ∧
      thread'.worker.ownTimes thread.task.currentSimulationTime ++
        List.replicate (count thread'.task.barrier) thread.task.currentSimulationTime =
      thread.worker.ownTimes thread.task.currentSimulationTime ++
        List.replicate (count thread.task.barrier) thread.task.currentSimulationTime) : OwnTimeInv thread' where
  closing := hclosing
  executed := by rw [hexecuted,hfired]; exact h.executed
  validating {time} hworker := by
    rw [hexecuted,hfired]
    rcases hvalidating time hworker with hold | ⟨hold,hended⟩
    · exact h.validating hold
    · rw [h.fired hended,hold]
      exact prefix_append _ _
  tick ht := by rw [htime]; exact h.tick (htick _ ht)
  fired hended := by
    obtain ⟨hold,hsame⟩ := hpending hended
    rw [hexecuted,hfired,htime,h.fired hold,append_assoc,append_assoc,hsame]
  execution he := by rw [hexecuted]; exact h.execution (hexecution _ he)
  acknowledged hmem := by
    rw [hexecuted]
    exact h.acknowledged (by rwa [← hacknowledged])

theorem ended_false_iff : thread.ended = false ↔
    thread.lifetime ≠ .destroyed ∧ isSet thread.task.threadShutdownSemaphore = false := by
  simp [ended,shutdown]

section
variable (h : OwnTimeInv thread)
include h

theorem ownTime_create (hstep : thread.create = some thread') : OwnTimeInv thread' := by
  unfold create at hstep
  split at hstep
  · cases hstep
    refine ⟨⟨fun hc => ?_,fun hc => ?_⟩,prefix_refl _,fun hw => ?_,fun ht => h.tick ht,fun _ => ?_,
      fun he => ?_,fun hmem => ?_⟩
    · simp at hc
    · simp at hc
    · simp at hw
    · simp [Task.create,TaskPosition.ownTimes]
    · simp [TaskPosition.execution] at he
    · simp at hmem
  · cases hstep

theorem ownTime_destroy (hstep : thread.destroy = some thread') : OwnTimeInv thread' := by
  unfold destroy at hstep
  split at hstep
  · cases hstep
  · cases hstep
    refine h.of_frame ⟨fun _ => isSet_notify _,fun hc => by simp at hc⟩ rfl rfl rfl rfl (fun _ ht => ht)
      (fun _ hw => .inl hw) (fun _ he => he) fun hended => ?_
    have hunset := (ended_false_iff.mp hended).2
    rw [isSet_notify] at hunset
    cases hunset
  · rename_i hlifetime
    cases hstep
    have hset : isSet thread.task.threadShutdownSemaphore = true := h.closing.notified (.inl hlifetime)
    refine h.of_frame ⟨fun _ => hset,fun hc => by simp at hc⟩ rfl rfl rfl rfl (fun _ ht => ht) (fun _ hw => .inl hw)
      (fun _ he => he) fun hended => ?_
    have hunset := (ended_false_iff.mp hended).2
    rw [hset] at hunset
    cases hunset
  · split at hstep
    · rename_i hfinished
      cases hstep
      refine h.of_frame ⟨fun hc => ?_,fun _ => hfinished⟩ rfl rfl rfl rfl (fun _ ht => ht) (fun _ hw => .inl hw)
        (fun _ he => he) fun hended => ?_
      · simp at hc
      · simp [ended] at hended
    · cases hstep

theorem ownTime_simTimeProgress {sum time : Int} (hallowed : OwnTimeKept thread (.simTimeProgress sum time))
    (hstep : thread.simTimeProgress sum time = some thread') : OwnTimeInv thread' := by
  unfold simTimeProgress at hstep
  split at hstep
  · cases hstep
    refine ⟨⟨h.closing.notified,h.closing.joined⟩,h.executed,h.validating,fun ht => ?_,fun hended => ?_,
      h.execution,h.acknowledged⟩
    · dsimp only at ht
      split at ht
      · exact (some.inj ht).symm
      · cases ht
    · rw [show thread.fired = _ from h.fired hended]
      rcases hallowed with hend | hnone | htime
      · rw [show thread.ended = false from hended] at hend
        cases hend
      · obtain ⟨hcount,hposition⟩ := Nat.add_eq_zero_iff.mp hnone
        rw [hcount]
        refine congrArg (thread.executed ++ · ++ []) (ownTimes_eq_of_time (fun hw => ?_) fun hw => ?_)
        · simp [hw] at hposition
        · simp [hw] at hposition
      · rw [htime]
  · cases hstep

theorem ownTime_tickHandler (hstep : thread.tickHandler = some thread') : OwnTimeInv thread' := by
  unfold tickHandler at hstep
  split at hstep
  · cases hstep
  · rename_i time htick
    cases hstep
    refine h.of_frame ⟨h.closing.notified,h.closing.joined⟩ rfl rfl rfl rfl (fun t ht => ?_)
      (fun _ hw => .inl hw) (fun _ he => he) fun hended => ⟨hended,rfl⟩
    rw [htick]
    by_cases hworking : thread.task.working = true <;> simpa [hworking,TickPosition.time] using ht
  · rename_i time htick
    cases hstep
    obtain ⟨semaphore,htask,hkeeps⟩ := applyTriggerViolation_keeps thread.task
    simp only [htask]
    refine h.of_frame ⟨fun hc => hkeeps (h.closing.notified hc),h.closing.joined⟩ rfl rfl rfl rfl (fun t ht => ?_)
      (fun _ hw => .inl hw) (fun _ he => he) fun hended => ⟨?_,rfl⟩
    · rw [htick]
      exact ht
    · obtain ⟨hlifetime,hunset⟩ := ended_false_iff.mp hended
      refine ended_false_iff.mpr ⟨hlifetime,Bool.eq_false_iff.mpr fun hset => ?_⟩
      simp_all
  · rename_i time htick
    cases hstep
    have htime : time = thread.task.currentSimulationTime := h.tick (by rw [htick]; rfl)
    refine ⟨⟨h.closing.notified,h.closing.joined⟩,h.executed.trans (prefix_append _ _),
      fun hw => (h.validating hw).trans (prefix_append _ _),fun ht => ?_,fun hended => ?_,h.execution,
      h.acknowledged⟩
    · cases ht
    · change thread.fired ++ [time] = _
      rw [h.fired hended,count_notify,replicate_succ',htime]
      simp only [append_assoc]

end

theorem Closing.of_running (h : thread.Closing) (hrunning : thread.worker ≠ .finished)
    (hlifetime : thread'.lifetime = thread.lifetime)
    (hshutdown : thread.shutdown = true → thread'.shutdown = true) : thread'.Closing where
  notified hc := hshutdown (h.notified (by rwa [← hlifetime]))
  joined hc := absurd (h.joined (by rwa [← hlifetime])) hrunning

theorem ownTime_moves {answers : ThreadAnswers} (h : OwnTimeInv thread)
    (hbefore : thread.worker = .loopHead ∨ thread.worker = .waiting ∨ thread.worker = .behindBarrier ∨
      thread.worker = .locked ∨ ∃ time, thread.worker = .timeRead time)
    (hstep : thread.threadFunc answers = some thread') : OwnTimeInv thread' := by
  have hrunning : thread.worker ≠ .finished := by
    rcases hbefore with hw | hw | hw | hw | ⟨time,hw⟩ <;> simp [hw]
  unfold threadFunc at hstep
  rcases hbefore with hw | hw | hw | hw | ⟨time,hw⟩
  · simp only [hw,some.injEq] at hstep
    subst hstep
    refine h.of_frame (h.closing.of_running hrunning rfl id) rfl rfl rfl rfl (fun _ ht => ht) (fun t ht => ?_)
      (fun t he => ?_) fun hended => ⟨hended,?_⟩
    · by_cases hset : thread.shutdown = true <;> simp [moveTo,hset] at ht
    · by_cases hset : thread.shutdown = true <;> simp [moveTo,hset,TaskPosition.execution] at he
    · by_cases hset : thread.shutdown = true <;> simp [moveTo,hset,hw,TaskPosition.ownTimes]
  · rw [hw] at hstep
    obtain ⟨barrier,hwait,rfl⟩ := map_eq_some_iff.mp hstep
    refine h.of_frame (h.closing.of_running hrunning rfl id) rfl rfl rfl rfl (fun _ ht => ht)
      (fun t ht => by simp at ht) (fun t he => ?_) fun hended => ⟨hended,?_⟩
    · simp [TaskPosition.execution] at he
    · rw [hw,count_of_tryWait hwait,replicate_succ]
      rfl
  · simp only [hw,some.injEq] at hstep
    subst hstep
    refine h.of_frame (h.closing.of_running hrunning rfl id) rfl rfl rfl rfl (fun _ ht => ht)
      (fun t ht => by simp at ht) (fun t he => ?_) fun hended => ⟨hended,?_⟩
    · simp [TaskPosition.execution] at he
    · rw [hw]
      rfl
  · simp only [hw,some.injEq] at hstep
    subst hstep
    refine h.of_frame (h.closing.of_running hrunning rfl id) rfl rfl rfl rfl (fun _ ht => ht)
      (fun t ht => by simp [moveTo] at ht) (fun t he => ?_) fun hended => ⟨hended,?_⟩
    · simp [moveTo,TaskPosition.execution] at he
    · rw [hw]
      rfl
  · simp only [hw,some.injEq] at hstep
    subst hstep
    by_cases hset : thread.shutdown = true
    · rw [if_pos hset]
      refine h.of_frame (h.closing.of_running hrunning rfl id) rfl rfl rfl rfl (fun _ ht => ht)
        (fun t ht => by simp [unlockTo] at ht) (fun t he => ?_) fun hended => ?_
      · simp [unlockTo,TaskPosition.execution] at he
      · have hunset := (ended_false_iff.mp hended).2
        exact absurd (hset.symm.trans hunset) (by decide)
    · rw [if_neg hset]
      have hrun : thread.ended = false :=
        ended_false_iff.mpr ⟨fun hc => hrunning (h.closing.joined hc),Bool.eq_false_iff.mpr hset⟩
      refine h.of_frame (h.closing.of_running hrunning rfl id) rfl rfl rfl rfl (fun _ ht => ht)
        (fun t ht => .inr ?_) (fun t he => ?_) fun hended => ⟨hended,?_⟩
      · cases ht
        exact ⟨hw,hrun⟩
      · simp [moveTo,TaskPosition.execution] at he
      · rw [hw]
        rfl

theorem ownTime_validate {time : Int} {wait : StepDataAccess.Wait} (h : OwnTimeInv thread)
    (hw : thread.worker = .validating time) (hallowed : thread.inputsAccepted wait = true)
    (hstep : thread.validate time wait = some thread') : OwnTimeInv thread' := by
  have hrunning : thread.worker ≠ .finished := by simp [hw]
  unfold validate at hstep
  split at hstep
  · cases hstep
  · simp only at hstep
    split at hstep
    · cases hstep
      refine ⟨h.closing.of_running hrunning rfl id,h.validating hw,fun ht => ?_,h.tick,fun hended => ?_,
        fun he => ?_,fun hmem => ?_⟩
      · simp at ht
      · rw [show thread.fired = _ from h.fired hended,hw]
        simp [TaskPosition.ownTimes]
      · cases he
        simp
      · exact getElem?_append_of_some (h.acknowledged hmem)
    · rename_i hfailed
      cases hstep
      refine h.of_frame (h.closing.of_running hrunning rfl id) rfl rfl rfl rfl (fun _ ht => ht)
        (fun t ht => by simp [unlockTo] at ht) (fun t he => ?_) fun hended => ?_
      · simp [unlockTo,TaskPosition.execution] at he
      · have hunset := (ended_false_iff.mp hended).2
        rw [inputsAccepted,hw] at hallowed
        rcases Bool.or_eq_true_iff.mp hallowed with hset | hok
        · exact absurd (hset.symm.trans hunset) (by decide)
        · exact absurd hok hfailed

theorem finish_task (thread : TaskThread S) (time usedTime : Int) : ∃ semaphore,
    (thread.finish time usedTime).task = {thread.task with threadShutdownSemaphore := semaphore, working := false} ∧
    (isSet thread.task.threadShutdownSemaphore = true → isSet semaphore = true) := by
  by_cases hlong : thread.operational ≠ 0 ∧ thread.operational < usedTime
  · obtain ⟨semaphore,htask,hkeeps⟩ := applyTimeViolationStrat_keeps thread.task
    refine ⟨semaphore,?_,hkeeps⟩
    simp only [finish,if_pos hlong,htask]
  · refine ⟨thread.task.threadShutdownSemaphore,?_,id⟩
    simp only [finish,if_neg hlong]

theorem finish_worker (thread : TaskThread S) (time usedTime : Int) :
    (thread.finish time usedTime).worker = .acknowledging time usedTime ∨
      (thread.finish time usedTime).worker = .loopHead := by
  exact ite_eq_or_eq _ _ _

section
variable (h : OwnTimeInv thread)
include h

theorem ownTime_finish {time usedTime : Int}
    (hw : thread.worker = .computing time) : OwnTimeInv (thread.finish time usedTime) := by
  have hrunning : thread.worker ≠ .finished := by simp [hw]
  obtain ⟨semaphore,htask,hkeeps⟩ := thread.finish_task time usedTime
  have hset : thread.shutdown = true → (thread.finish time usedTime).shutdown = true := by
    rw [shutdown,shutdown,htask]
    exact hkeeps
  have hworker := thread.finish_worker time usedTime
  refine h.of_frame (h.closing.of_running hrunning rfl hset) rfl rfl rfl (by rw [htask]) (fun _ ht => ht)
    (fun t ht => ?_) (fun t he => ?_) fun hended => ⟨?_,?_⟩
  · rcases hworker with hw' | hw' <;> simp [hw'] at ht
  · rcases hworker with hw' | hw'
    · rw [hw'] at he
      rw [hw]
      exact he
    · simp [hw',TaskPosition.execution] at he
  · obtain ⟨hlifetime,hunset⟩ := ended_false_iff.mp hended
    refine ended_false_iff.mpr ⟨hlifetime,Bool.eq_false_iff.mpr fun hold => ?_⟩
    exact absurd ((hset hold).symm.trans hunset) (by decide)
  · rw [htask,hw]
    rcases hworker with hw' | hw' <;> rw [hw'] <;> rfl

theorem ownTime_sendAcknowledgement {time usedTime : Int} (hw : thread.worker = .acknowledging time usedTime) :
    OwnTimeInv (thread.sendAcknowledgement time usedTime) := by
  have hrunning : thread.worker ≠ .finished := by simp [hw]
  have hlast : thread.executed.getLast? = some time := h.execution (by rw [hw]; rfl)
  unfold sendAcknowledgement
  split
  · refine h.of_frame (h.closing.of_running hrunning rfl id) rfl rfl rfl rfl (fun _ ht => ht)
      (fun t ht => by simp [moveTo] at ht) (fun t he => ?_) fun hended => ⟨hended,?_⟩
    · simp [moveTo,TaskPosition.execution] at he
    · rw [hw]
      rfl
  · rename_i ack hack
    have hcurr : ack.currSimTime = time := by
      unfold Task.acknowledgement at hack
      split at hack
      · cases hack
      · cases hack
        rfl
    refine ⟨h.closing.of_running hrunning rfl id,h.executed,fun ht => by simp at ht,h.tick,fun hended => ?_,
      fun he => ?_,fun {k entry} hmem => ?_⟩
    · rw [show thread.fired = _ from h.fired hended,hw]
      rfl
    · simp [TaskPosition.execution] at he
    · rcases mem_append.mp hmem with hmem | hmem
      · exact h.acknowledged hmem
      · obtain ⟨rfl,rfl⟩ := Prod.mk.inj (mem_singleton.mp hmem)
        rw [hcurr,← getLast?_eq_getElem?]
        exact hlast

private theorem ownTime_threadFunc {answers : ThreadAnswers} (hallowed : OwnTimeKept thread (.threadFunc answers))
    (hstep : thread.threadFunc answers = some thread') : OwnTimeInv thread' := by
  cases hw : thread.worker with
  | loopHead => exact ownTime_moves h (.inl hw) hstep
  | waiting => exact ownTime_moves h (.inr (.inl hw)) hstep
  | behindBarrier => exact ownTime_moves h (.inr (.inr (.inl hw))) hstep
  | locked => exact ownTime_moves h (.inr (.inr (.inr (.inl hw)))) hstep
  | timeRead time => exact ownTime_moves h (.inr (.inr (.inr (.inr ⟨time,hw⟩)))) hstep
  | validating time =>
    simp only [threadFunc,hw] at hstep
    exact ownTime_validate h hw hallowed hstep
  | computing time =>
    simp only [threadFunc,hw,some.injEq] at hstep
    rw [← hstep]
    exact ownTime_finish h hw
  | acknowledging time usedTime =>
    simp only [threadFunc,hw,some.injEq] at hstep
    rw [← hstep]
    exact ownTime_sendAcknowledgement h hw
  | finished => simp [threadFunc,hw] at hstep

private theorem ownTime_step {action : TaskAction} (hallowed : OwnTimeKept thread action)
    (hstep : step thread action = some thread') : OwnTimeInv thread' := by
  cases action with
  | create => exact ownTime_create h hstep
  | destroy => exact ownTime_destroy h hstep
  | simTimeProgress sum time => exact ownTime_simTimeProgress h hallowed hstep
  | tickHandler => exact ownTime_tickHandler h hstep
  | threadFunc answers => exact ownTime_threadFunc h hallowed hstep

end

private theorem ownTime_new (task : Task S) (operational : Int) (dataAccess : StepDataAccess) :
    OwnTimeInv (new task operational dataAccess) := by
  refine ⟨⟨fun hc => ?_,fun _ => rfl⟩,prefix_refl _,fun hw => ?_,fun ht => ?_,fun hended => ?_,
    fun he => ?_,fun hmem => ?_⟩
  · simp [new] at hc
  · simp [new] at hw
  · simp [new,TickPosition.time] at ht
  · simp [new,ended] at hended
  · simp [new,TaskPosition.execution] at he
  · simp [new] at hmem

/-- In every run in which each tick finds the fired steps with their time read, or brings the same, the k-th
execution gets the time of the k-th tick that fired the task, and its acknowledgement carries it. -/
theorem steps_own_time (task : Task S) (operational : Int) (dataAccess : StepDataAccess)
    (hreach : Reaches step OwnTimeKept (new task operational dataAccess) thread) : StepsOwnTime thread := by
  have h := hreach.invariant (ownTime_new task operational dataAccess)
    fun _ _ _ hinv hallowed hstep => ownTime_step hinv hallowed hstep
  refine ⟨fun k time hk => ?_,fun k ack hmem => h.acknowledged hmem⟩
  obtain ⟨more,hfired⟩ := h.executed
  rw [← hfired]
  exact getElem?_append_of_some hk

instance (thread : TaskThread S) (action : TaskAction) : Decidable (OwnTimeKept thread action) :=
  match action with
  | .simTimeProgress .. => inferInstanceAs (Decidable (_ ∨ _ ∨ _))
  | .threadFunc _ => inferInstanceAs (Decidable (_ = true))
  | .create | .destroy | .tickHandler => inferInstanceAs (Decidable True)

/-- A task with a cycle of ten, whose inputs and acknowledgements never fail. -/
def sampleTask (strategy : TimeViolationStrategy) (operational : Int) : TaskThread Nat :=
  new ⟨"step","01234567-89ab-cdef-0123-456789abcdef",10,strategy,0,0,0,false⟩ operational .new

def quickAnswers (usedTime : Int) : ThreadAnswers := ⟨fun _ _ _ => .errNoError,usedTime,.errNoError⟩

/-- A tick that fires the sample task while its worker thread does not hold the mutex. -/
def firingTick (time : Int) : List TaskAction := [.simTimeProgress time time,.tickHandler,.tickHandler]

def workerSteps (n : Nat) (usedTime : Int) : List TaskAction := List.replicate n (.threadFunc (quickAnswers usedTime))

theorem steps_own_time_two_steps : ∃ thread : TaskThread Nat,
    Reaches step OwnTimeKept (sampleTask .ignoreRuntimeViolation 0) thread ∧
      thread.executed = [10,20] ∧ StepsOwnTime thread := by
  obtain ⟨thread,hreach,htwo⟩ : ∃ thread, Reaches step OwnTimeKept (sampleTask .ignoreRuntimeViolation 0) thread ∧
      thread.executed = [10,20] :=
    exists_of_runAllowed (.create::firingTick 10 ++ workerSteps 8 5 ++ firingTick 20 ++ workerSteps 8 5)
      (by decide +kernel)
  exact ⟨thread,hreach,htwo,steps_own_time _ _ _ hreach⟩

/-- A tick that does not even fire the task replaces the time of a step that waits to be run. -/
theorem step_with_later_time : ∃ thread : TaskThread Nat,
    Reaches step anyAction (sampleTask .ignoreRuntimeViolation 0) thread ∧ ¬StepsOwnTime thread := by
  obtain ⟨thread,hreach,hlater⟩ : ∃ thread, Reaches step anyAction (sampleTask .ignoreRuntimeViolation 0) thread ∧
      thread.executed[0]? = some 15 ∧ thread.fired[0]? = some 10 :=
    exists_of_runActions (TaskAction.create::firingTick 10 ++ [TaskAction.simTimeProgress 15 15] ++ workerSteps 7 5)
      (by decide +kernel)
  obtain ⟨hexecuted,hfired⟩ := hlater
  refine ⟨thread,hreach,fun h => ?_⟩
  have hown := h.executed 0 15 hexecuted
  rw [hfired] at hown
  exact absurd (some.inj hown) (by decide)

end TaskThread
end FepParticipant.Timing
