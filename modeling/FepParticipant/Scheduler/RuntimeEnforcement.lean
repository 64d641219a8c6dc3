import FepParticipant.Scheduler.LockedStepScheduler
import FepParticipant.Timing.StepTime

/-! What both schedulers owe a job that ran too long: the callback of the locked step scheduler performs the output
before the runtime is checked. -/
namespace FepParticipant.Scheduler
open Library CountingSemaphore List Option
open Timing (TaskThread TaskAction TaskExecution TaskPosition HandleAnswers)

namespace JobExecution

/-- The execution took longer than the configured positive maximum. -/
def Exceeds (execution : JobExecution) (maxRuntime : Int) : Prop := 0 < maxRuntime ∧ maxRuntime < execution.duration

/-- The number of output steps performed. -/
def publications (execution : JobExecution) : Nat :=
  execution.calls.countP fun call => match call with
    | .executeDataOut _ => true
    | .executeDataIn _ | .execute _ => false

end JobExecution

/-- The strategies that keep the output of a violating execution back. -/
def TimeViolationStrategy.Withholds (strategy : TimeViolationStrategy) : Prop :=
  strategy = .tsSkipOutputPublish ∨ strategy = .tsSetStmToError

/-- The runtime violation strategy is enforced on a sequence of executions, of which `begun` is
the number that were begun. -/
structure Enforced (config : JobConfiguration) (begun : Nat) (executions : List JobExecution) : Prop where
  withheld (execution : JobExecution) : execution ∈ executions →
    execution.Exceeds config.maxRuntimeRealTimeUs → config.runtimeViolationStrategy.Withholds →
    execution.publications = 0
  errorEvent (execution : JobExecution) : execution ∈ executions →
    execution.Exceeds config.maxRuntimeRealTimeUs → config.runtimeViolationStrategy = .tsSetStmToError →
    execution.errorEvent = true
  last (k : Nat) (execution : JobExecution) : executions[k]? = some execution →
    execution.Exceeds config.maxRuntimeRealTimeUs → config.runtimeViolationStrategy = .tsSetStmToError →
    begun = k + 1
  published (execution : JobExecution) : execution ∈ executions →
    ¬(execution.Exceeds config.maxRuntimeRealTimeUs ∧ config.runtimeViolationStrategy.Withholds) →
    execution.publications = 1

def clockBasedCheck (name : String) (config : JobConfiguration) : JobRuntimeCheck :=
  .new name config.runtimeViolationStrategy config.maxRuntimeRealTimeUs

/-- Both schedulers enforce the strategy, and publish the outputs of the same executions. -/
structure EnforcedAlike {S : Type} (name : String) (config : JobConfiguration)
    (triggers : List (Int × JobAnswers)) (thread : TaskThread S) : Prop where
  clockBased : Enforced config ((clockBasedCheck name config).executions triggers).length
    ((clockBasedCheck name config).executions triggers)
  lockedStep : Enforced config thread.executed.length (lockedStepExecutions thread)
  alike : ((clockBasedCheck name config).executions triggers).map (·.publications) =
    (lockedStepExecutions thread).map (·.publications)

namespace JobRuntimeCheck

variable {check : JobRuntimeCheck} {answers : JobAnswers} {config : JobConfiguration}

structure Configured (check : JobRuntimeCheck) (config : JobConfiguration) : Prop where
  strategy : check.timeViolationStrategy = config.runtimeViolationStrategy
  maxRuntime : check.maxRuntime = config.maxRuntimeRealTimeUs

private theorem applyTimeViolationStrategy_cases (check : JobRuntimeCheck) (duration : Int)
    (hskip : check.skipOutput = false) :
    ∃ cancelled skipOutput, (check.applyTimeViolationStrategy duration .errNoError).check =
        {check with cancelled := cancelled, skipOutput := skipOutput} ∧
      (cancelled = true ↔ check.cancelled = true ∨ check.timeViolationStrategy = .tsSetStmToError) ∧
      ((isFailed (check.applyTimeViolationStrategy duration .errNoError).result || skipOutput) = true ↔
        check.timeViolationStrategy.Withholds) := by
  obtain ⟨name,strategy,maxRuntime,cancelled,skipOutput⟩ := check
  cases hskip
  unfold TimeViolationStrategy.Withholds
  cases strategy with
  | tsUnknown => exact ⟨cancelled,false,rfl,by simp,by simp [applyTimeViolationStrategy]⟩
  | tsIgnoreRuntimeViolation => exact ⟨cancelled,false,rfl,by simp,by simp [applyTimeViolationStrategy]⟩
  | tsWarnAboutRuntimeViolation => exact ⟨cancelled,false,rfl,by simp,by simp [applyTimeViolationStrategy]⟩
  | tsSkipOutputPublish => exact ⟨cancelled,true,rfl,by simp,by simp⟩
  | tsSetStmToError => exact ⟨true,true,rfl,by simp,by simp⟩

theorem checkRuntime_cases (hconfigured : check.Configured config)
    (haccepted : answers.setParticipantToErrorState = .errNoError) :
    (check.checkRuntime answers).check.Configured config ∧
    ((check.checkRuntime answers).check.cancelled = true ↔ check.cancelled = true ∨
      (0 < config.maxRuntimeRealTimeUs ∧ config.maxRuntimeRealTimeUs < answers.executionTime) ∧
        config.runtimeViolationStrategy = .tsSetStmToError) ∧ (check.withholds answers = true ↔
      (0 < config.maxRuntimeRealTimeUs ∧ config.maxRuntimeRealTimeUs < answers.executionTime) ∧
        config.runtimeViolationStrategy.Withholds) := by
  obtain ⟨hstrategy,hmax⟩ := hconfigured
  unfold withholds checkRuntime
  rw [hmax,haccepted]
  by_cases hlong : 0 < config.maxRuntimeRealTimeUs ∧ config.maxRuntimeRealTimeUs < answers.executionTime
  · obtain ⟨cancelled,skipOutput,hcheck,hcancelled,hwithheld⟩ :=
      applyTimeViolationStrategy_cases check.publishing answers.executionTime rfl
    rw [if_pos hlong,hcheck,← hstrategy]
    simp only [hlong,and_self,true_and]
    exact ⟨⟨hstrategy,hmax⟩,hcancelled,hwithheld⟩
  · rw [if_neg hlong]
    simp only [hlong,false_and,or_false]
    exact ⟨⟨hstrategy,hmax⟩,Iff.rfl,by simp [publishing]⟩

theorem executions_of_cancelled (hcancelled : check.cancelled = true) (triggers : List (Int × JobAnswers)) :
    check.executions triggers = [] := by
  induction triggers with
  | nil => rfl
  | cons trigger triggers ih =>
    obtain ⟨time,answers⟩ := trigger
    have hcheck : (check.runJob answers).check = check := by rw [runJob_check,if_pos hcancelled]
    rw [executions,execution,if_pos hcancelled,hcheck,ih]
    rfl

section
variable (hconfigured : check.Configured config)
include hconfigured

theorem execution_cases
    (haccepted : answers.setParticipantToErrorState = .errNoError) (hrun : check.cancelled = false) (time : Int) :
    ∃ execution, check.execution time answers = some execution ∧ execution.duration = answers.executionTime ∧
      (execution.errorEvent = true ↔ execution.Exceeds config.maxRuntimeRealTimeUs ∧
        config.runtimeViolationStrategy = .tsSetStmToError) ∧
      ((execution.Exceeds config.maxRuntimeRealTimeUs ∧ config.runtimeViolationStrategy.Withholds) →
        execution.publications = 0) ∧
      (¬(execution.Exceeds config.maxRuntimeRealTimeUs ∧ config.runtimeViolationStrategy.Withholds) →
        execution.publications = 1) := by
  obtain ⟨-,-,hwithheld⟩ := checkRuntime_cases hconfigured haccepted
  refine ⟨_,by rw [execution,if_neg (by simp [hrun])],rfl,?_,fun hviolates => ?_,fun hkeeps => ?_⟩
  · simp only [decide_eq_true_eq,hconfigured.strategy,hconfigured.maxRuntime,JobExecution.Exceeds,and_assoc]
  · simp [hwithheld.mpr hviolates,JobExecution.publications]
  · simp [show check.withholds answers = false from Bool.eq_false_iff.mpr (mt hwithheld.mp hkeeps),
      JobExecution.publications]

theorem enforced_executions (triggers : List (Int × JobAnswers))
    (haccepted : ∀ trigger ∈ triggers, trigger.2.setParticipantToErrorState = .errNoError) :
    Enforced config (check.executions triggers).length (check.executions triggers) := by
  induction triggers generalizing check with
  | nil => exact ⟨by simp [executions],by simp [executions],by simp [executions],by simp [executions]⟩
  | cons trigger triggers ih =>
    obtain ⟨time,answers⟩ := trigger
    cases hrun : check.cancelled with
    | true =>
      rw [executions_of_cancelled hrun]
      exact ⟨by simp,by simp,by simp,by simp⟩
    | false =>
      have hanswer := haccepted _ mem_cons_self
      obtain ⟨execution,hexecution,hduration,herror,hzero,hone⟩ := execution_cases hconfigured hanswer hrun time
      obtain ⟨hnext,hcancelled,-⟩ := checkRuntime_cases hconfigured hanswer
      have hcheck : (check.runJob answers).check = (check.checkRuntime answers).check := by
        rw [runJob_check,if_neg (by simp [hrun])]
      have hrest := ih hnext fun trigger hmem => haccepted trigger (mem_cons_of_mem _ hmem)
      have hlist : check.executions ((time,answers)::triggers) =
          execution::(check.checkRuntime answers).check.executions triggers := by
        rw [executions,hexecution,hcheck]
        rfl
      rw [hlist]
      refine ⟨fun e hmem hlong hwithholds => ?_,fun e hmem hlong hstrategy => ?_,fun k e hk hlong hstrategy => ?_,
        fun e hmem hkeeps => ?_⟩
      · rcases mem_cons.mp hmem with rfl | hmem
        · exact hzero ⟨hlong,hwithholds⟩
        · exact hrest.withheld e hmem hlong hwithholds
      · rcases mem_cons.mp hmem with rfl | hmem
        · exact herror.mpr ⟨hlong,hstrategy⟩
        · exact hrest.errorEvent e hmem hlong hstrategy
      · cases k with
        | zero =>
          cases hk
          have hstop : (check.checkRuntime answers).check.cancelled = true :=
            hcancelled.mpr (.inr ⟨by rwa [← hduration],hstrategy⟩)
          rw [executions_of_cancelled hstop]
          rfl
        | succ k => exact congrArg (· + 1) (hrest.last k e hk hlong hstrategy)
      · rcases mem_cons.mp hmem with rfl | hmem
        · exact hone hkeeps
        · exact hrest.published e hmem hkeeps

theorem publications_of_kept (hrun : check.cancelled = false) (triggers : List (Int × JobAnswers))
    (haccepted : ∀ trigger ∈ triggers, trigger.2.setParticipantToErrorState = .errNoError)
    (hkept : ∀ trigger ∈ triggers, ¬((0 < config.maxRuntimeRealTimeUs ∧
      config.maxRuntimeRealTimeUs < trigger.2.executionTime) ∧ config.runtimeViolationStrategy.Withholds)) :
    (check.executions triggers).map (·.publications) = List.replicate triggers.length 1 := by
  induction triggers generalizing check with
  | nil => rfl
  | cons trigger triggers ih =>
    obtain ⟨time,answers⟩ := trigger
    have hanswer := haccepted _ mem_cons_self
    have hkeeps := hkept _ mem_cons_self
    obtain ⟨execution,hexecution,hduration,-,-,hone⟩ := execution_cases hconfigured hanswer hrun time
    obtain ⟨hnext,hcancelled,-⟩ := checkRuntime_cases hconfigured hanswer
    have hcheck : (check.runJob answers).check = (check.checkRuntime answers).check := by
      rw [runJob_check,if_neg (by simp [hrun])]
    have hgo : (check.checkRuntime answers).check.cancelled = false := by
      refine Bool.eq_false_iff.mpr fun hstop => ?_
      rcases hcancelled.mp hstop with hold | ⟨hlong,hstrategy⟩
      · simp [hrun] at hold
      · exact hkeeps ⟨hlong,.inr hstrategy⟩
    have hpublished : execution.publications = 1 := hone (by rwa [JobExecution.Exceeds,hduration])
    rw [executions,hexecution,hcheck,map_append,
      ih hnext hgo (fun trigger hmem => haccepted trigger (mem_cons_of_mem _ hmem))
        (fun trigger hmem => hkept trigger (mem_cons_of_mem _ hmem))]
    simp only [toList_some,map_cons,map_nil,hpublished]
    rfl

end

end JobRuntimeCheck

/-- An execution under the locked step scheduler exceeded the maximum of its task. -/
def Overran {S : Type} (thread : TaskThread S) (execution : TaskExecution) : Prop :=
  thread.operational ≠ 0 ∧ thread.operational < execution.usedTime

/-- A violation that ends the simulation: the error event was raised, nothing was begun after it, and the worker
thread is about to end. -/
structure ErrorLast {S : Type} [CountingSemaphore S] (thread : TaskThread S) (k : Nat)
    (execution : TaskExecution) : Prop where
  raised : .errorEvent ∈ execution.effects
  last : thread.completed.length = k + 1
  shutdown : thread.shutdown = true
  ending : thread.worker = .loopHead ∨ thread.worker = .finished

/-- The calls that were begun are those that returned and the one that is running. -/
structure ErrorInv {S : Type} [CountingSemaphore S] (config : JobConfiguration) (thread : TaskThread S) : Prop where
  strategy : thread.task.timeViolationStrategy = castStrategy config.runtimeViolationStrategy
  operational : thread.operational = config.maxRuntimeRealTimeUs
  begun : thread.executed.length = thread.completed.length + match thread.worker with
    | .computing _ => 1
    | _ => 0
  error (k : Nat) (execution : TaskExecution) : thread.completed[k]? = some execution →
    Overran thread execution → thread.task.timeViolationStrategy = .setStmToError → ErrorLast thread k execution

section LockedStep

variable {S : Type} [CountingSemaphore S] {config : JobConfiguration} {thread thread' : TaskThread S}
variable {time : Int}

section
variable (h : ErrorInv config thread)
include h

theorem ErrorInv.of_frame (hstrategy : thread'.task.timeViolationStrategy = thread.task.timeViolationStrategy)
    (hoperational : thread'.operational = thread.operational) (hexecuted : thread'.executed = thread.executed)
    (hcompleted : thread'.completed = thread.completed)
    (hcomputing : ∀ time, thread'.worker = .computing time ↔ thread.worker = .computing time)
    (hshutdown : thread.shutdown = true → thread'.shutdown = true)
    (hending : thread.shutdown = true → thread.worker = .loopHead ∨ thread.worker = .finished →
      thread'.worker = .loopHead ∨ thread'.worker = .finished) : ErrorInv config thread' where
  strategy := hstrategy.trans h.strategy
  operational := hoperational.trans h.operational
  begun := by
    rw [hexecuted,hcompleted,h.begun]
    cases hworker : thread.worker with
    | computing time => rw [(hcomputing time).mpr hworker]
    | _ =>
      cases hworker' : thread'.worker with
      | computing time => exact absurd ((hcomputing time).mp hworker') (by simp [hworker])
      | _ => rfl
  error k execution hk hlong herror := by
    rw [hcompleted] at hk
    obtain ⟨hraised,hlast,hset,hends⟩ := h.error k execution hk (by rwa [Overran,← hoperational])
      (hstrategy.symm.trans herror)
    exact ⟨hraised,by rw [hcompleted]; exact hlast,hshutdown hset,hending hset hends⟩

theorem error_create (hstep : thread.create = some thread') : ErrorInv config thread' := by
  unfold TaskThread.create at hstep
  split at hstep
  · cases hstep
    exact ⟨h.strategy,h.operational,rfl,fun k execution hk => by simp at hk⟩
  · cases hstep

theorem error_destroy (hstep : thread.destroy = some thread') : ErrorInv config thread' := by
  unfold TaskThread.destroy at hstep
  split at hstep
  · cases hstep
  · cases hstep
    exact h.of_frame rfl rfl rfl rfl (fun _ => Iff.rfl) (fun _ => TaskThread.isSet_notify _) fun _ hends => hends
  · cases hstep
    exact h.of_frame rfl rfl rfl rfl (fun _ => Iff.rfl) id fun _ hends => hends
  · split at hstep
    · cases hstep
      exact h.of_frame rfl rfl rfl rfl (fun _ => Iff.rfl) id fun _ hends => hends
    · cases hstep

theorem error_simTimeProgress {sum time : Int}
    (hstep : thread.simTimeProgress sum time = some thread') : ErrorInv config thread' := by
  unfold TaskThread.simTimeProgress at hstep
  split at hstep
  · cases hstep
    exact h.of_frame rfl rfl rfl rfl (fun _ => Iff.rfl) id fun _ hends => hends
  · cases hstep

theorem error_tickHandler (hstep : thread.tickHandler = some thread') : ErrorInv config thread' := by
  unfold TaskThread.tickHandler at hstep
  split at hstep
  · cases hstep
  · cases hstep
    exact h.of_frame rfl rfl rfl rfl (fun _ => Iff.rfl) id fun _ hends => hends
  · cases hstep
    obtain ⟨semaphore,htask,hkeeps⟩ := TaskThread.applyTriggerViolation_keeps thread.task
    simp only [htask]
    exact h.of_frame rfl rfl rfl rfl (fun _ => Iff.rfl) hkeeps fun _ hends => hends
  · cases hstep
    exact h.of_frame rfl rfl rfl rfl (fun _ => Iff.rfl) id fun _ hends => hends

theorem ErrorInv.of_move {task : Timing.Task S} {position : TaskPosition}
    {access : DataAccess.StepDataAccess} {acknowledged : List (Nat × Timing.TriggerAck)}
    (hbetween : thread.worker ≠ .loopHead ∧ thread.worker ≠ .finished)
    (htask : task.timeViolationStrategy = thread.task.timeViolationStrategy ∧
      task.threadShutdownSemaphore = thread.task.threadShutdownSemaphore)
    (hold : ∀ time, thread.worker ≠ .computing time) (hnew : ∀ time, position ≠ .computing time) :
    ErrorInv config { thread with
      task := task, worker := position, dataAccess := access, acknowledged := acknowledged } :=
  h.of_frame htask.1 rfl rfl rfl (fun time => iff_of_false (hnew time) (hold time))
    (fun hset => by rw [TaskThread.shutdown,htask.2]; exact hset)
    fun _ hends => absurd hends (not_or_intro hbetween.1 hbetween.2)

theorem error_validate {wait : DataAccess.StepDataAccess.Wait}
    (hw : thread.worker = .validating time) (hstep : thread.validate time wait = some thread') :
    ErrorInv config thread' := by
  have hbetween : thread.worker ≠ .loopHead ∧ thread.worker ≠ .finished := by simp [hw]
  unfold TaskThread.validate at hstep
  split at hstep
  · cases hstep
  · simp only at hstep
    split at hstep
    · cases hstep
      refine ⟨h.strategy,h.operational,?_,fun k execution hk hlong herror => ?_⟩
      · simp [h.begun,hw]
      · have hends := (h.error k execution hk hlong herror).ending
        exact absurd hends (not_or_intro hbetween.1 hbetween.2)
    · cases hstep
      exact h.of_move hbetween ⟨rfl,rfl⟩ (by simp [hw]) (by simp)

end

private theorem finish_error {time usedTime : Int} (hlong : thread.operational ≠ 0 ∧ thread.operational < usedTime)
    (herror : thread.task.timeViolationStrategy = .setStmToError) :
    (thread.finish time usedTime).worker = .loopHead ∧ (thread.finish time usedTime).shutdown = true ∧
      ∀ execution, (thread.finish time usedTime).completed[thread.completed.length]? = some execution →
        .errorEvent ∈ execution.effects := by
  unfold TaskThread.finish Timing.Task.applyTimeViolationStrat
  simp only [if_pos hlong,herror]
  refine ⟨rfl,TaskThread.isSet_notify _,fun execution hk => ?_⟩
  rw [getElem?_concat_length] at hk
  cases hk
  simp

section
variable (h : ErrorInv config thread)
include h

theorem error_finish {time usedTime : Int}
    (hw : thread.worker = .computing time) : ErrorInv config (thread.finish time usedTime) := by
  obtain ⟨semaphore,htask,-⟩ := thread.finish_task time usedTime
  have hcompleted : ∃ execution, execution.usedTime = usedTime ∧
      (thread.finish time usedTime).completed = thread.completed ++ [execution] := ⟨_,rfl,rfl⟩
  obtain ⟨returned,hused,hcompleted⟩ := hcompleted
  refine ⟨by rw [htask]; exact h.strategy,h.operational,?_,fun k execution hk hlong herror => ?_⟩
  · have hbegun := h.begun
    rw [hw] at hbegun
    change thread.executed.length = _
    rw [hcompleted,length_append,hbegun]
    rcases thread.finish_worker time usedTime with hw' | hw' <;> rw [hw'] <;> rfl
  · rw [htask] at herror
    by_cases hk' : k < thread.completed.length
    · rw [hcompleted,getElem?_append_left hk'] at hk
      have hends := (h.error k execution hk hlong herror).ending
      simp [hw] at hends
    · have hlast : k = thread.completed.length := by
        have hbound := (List.getElem?_eq_some_iff.mp hk).1
        rw [hcompleted,length_append,length_singleton] at hbound
        omega
      subst hlast
      have hsame : execution = returned := by
        rw [hcompleted,getElem?_concat_length] at hk
        exact (some.inj hk).symm
      have hover : thread.operational ≠ 0 ∧ thread.operational < usedTime := by
        rw [← hused,← hsame]
        exact hlong
      obtain ⟨hworker,hset,hraised⟩ := finish_error hover herror
      exact ⟨hraised execution hk,by rw [hcompleted,length_append]; rfl,hset,.inl hworker⟩

theorem error_threadFunc {answers : Timing.ThreadAnswers}
    (hstep : thread.threadFunc answers = some thread') : ErrorInv config thread' := by
  unfold TaskThread.threadFunc at hstep
  cases hw : thread.worker with
  | loopHead =>
    simp only [hw,some.injEq] at hstep
    subst hstep
    refine h.of_frame rfl rfl rfl rfl (fun time => ?_) id fun hset _ => .inr ?_
    · by_cases hset : thread.shutdown = true <;> simp [TaskThread.moveTo,hset,hw]
    · simp [TaskThread.moveTo,hset]
  | waiting =>
    rw [hw] at hstep
    obtain ⟨barrier,-,rfl⟩ := map_eq_some_iff.mp hstep
    exact h.of_move (by simp [hw]) ⟨rfl,rfl⟩ (by simp [hw]) (by simp)
  | behindBarrier =>
    simp only [hw,some.injEq] at hstep
    subst hstep
    exact h.of_move (by simp [hw]) ⟨rfl,rfl⟩ (by simp [hw]) (by simp)
  | locked =>
    simp only [hw,some.injEq] at hstep
    subst hstep
    exact h.of_move (by simp [hw]) ⟨rfl,rfl⟩ (by simp [hw]) (by simp)
  | timeRead time =>
    simp only [hw,some.injEq] at hstep
    subst hstep
    split
    · exact h.of_move (by simp [hw]) ⟨rfl,rfl⟩ (by simp [hw]) (by simp)
    · exact h.of_move (by simp [hw]) ⟨rfl,rfl⟩ (by simp [hw]) (by simp)
  | validating time =>
    simp only [hw] at hstep
    exact error_validate h hw hstep
  | computing time =>
    simp only [hw,some.injEq] at hstep
    rw [← hstep]
    exact error_finish h hw
  | acknowledging time usedTime =>
    simp only [hw,some.injEq] at hstep
    subst hstep
    unfold TaskThread.sendAcknowledgement
    split
    · exact h.of_move (by simp [hw]) ⟨rfl,rfl⟩ (by simp [hw]) (by simp)
    · exact h.of_move (by simp [hw]) ⟨rfl,rfl⟩ (by simp [hw]) (by simp)
  | finished => simp [hw] at hstep

private theorem error_step {action : TaskAction}
    (hstep : TaskThread.step thread action = some thread') : ErrorInv config thread' := by
  cases action with
  | create => exact error_create h hstep
  | destroy => exact error_destroy h hstep
  | simTimeProgress sum time => exact error_simTimeProgress h hstep
  | tickHandler => exact error_tickHandler h hstep
  | threadFunc answers => exact error_threadFunc h hstep

end

private theorem error_lockedStepJob {answers : HandleAnswers} {name uuid : String}
    (hjob : lockedStepJob answers name uuid config = some thread) : ErrorInv config thread := by
  unfold lockedStepJob TaskThread.registerStepListener TaskThread.configure at hjob
  split at hjob
  · cases hjob
  · cases hjob
    exact ⟨rfl,rfl,rfl,fun k execution hk => by cases hk⟩

/-- In every run under the locked step scheduler an execution that exceeds the maximum of a job that ends the
simulation raises the error event and is the last one. -/
theorem error_last {answers : HandleAnswers} {name uuid : String} {job : TaskThread S}
    (hjob : lockedStepJob answers name uuid config = some job)
    (hreach : Reaches TaskThread.step anyAction job thread) {k : Nat} {execution : JobExecution}
    (hk : (lockedStepExecutions thread)[k]? = some execution) (hlong : execution.Exceeds config.maxRuntimeRealTimeUs)
    (herror : config.runtimeViolationStrategy = .tsSetStmToError) :
    execution.errorEvent = true ∧ thread.executed.length = k + 1 := by
  have h := hreach.invariant (error_lockedStepJob hjob) fun _ _ _ hinv _ hstep => error_step hinv hstep
  rw [lockedStepExecutions,getElem?_map] at hk
  obtain ⟨completed,hcompleted,rfl⟩ := map_eq_some_iff.mp hk
  have hover : Overran thread completed := by
    rw [Overran,h.operational]
    exact ⟨hlong.1.ne',hlong.2⟩
  obtain ⟨hraised,hlast,-,hends⟩ := h.error k completed hcompleted hover (by rw [h.strategy,herror]; rfl)
  refine ⟨by simpa using hraised,?_⟩
  rw [h.begun,hlast]
  rcases hends with hw | hw
  · rw [hw]
    rfl
  · rw [hw]
    rfl

end LockedStep

theorem publications_lockedStep {S : Type} {thread : TaskThread S} {execution : JobExecution}
    (hmem : execution ∈ lockedStepExecutions thread) : execution.publications = 1 := by
  obtain ⟨completed,-,rfl⟩ := mem_map.mp hmem
  rfl

private theorem map_publications {executions : List JobExecution}
    (h : ∀ execution ∈ executions, execution.publications = 1) :
    executions.map (·.publications) = List.replicate executions.length 1 := by
  induction executions with
  | nil => rfl
  | cons execution executions ih =>
    rw [map_cons,h execution mem_cons_self,ih fun execution hmem => h execution (mem_cons_of_mem _ hmem)]
    rfl

/-- For every job and run under each scheduler with the same durations: both enforce the strategy and publish the
same outputs if and only if no execution exceeds the maximum where its output is to be withheld. Where one does, the
error event and the end are still as they have to be. -/
theorem enforced_alike_iff {S : Type} [CountingSemaphore S] (handles : HandleAnswers) (name uuid : String)
    (config : JobConfiguration) (triggers : List (Int × JobAnswers)) {job thread : TaskThread S}
    (hjob : lockedStepJob handles name uuid config = some job) (hreach : Reaches TaskThread.step anyAction job thread)
    (haccepted : ∀ trigger ∈ triggers, trigger.2.setParticipantToErrorState = .errNoError)
    (hdurations : triggers.map (·.2.executionTime) = (lockedStepExecutions thread).map (·.duration)) :
    (EnforcedAlike name config triggers thread ↔ ∀ execution ∈ lockedStepExecutions thread,
      ¬(execution.Exceeds config.maxRuntimeRealTimeUs ∧ config.runtimeViolationStrategy.Withholds)) ∧
    ∀ k execution, (lockedStepExecutions thread)[k]? = some execution →
      execution.Exceeds config.maxRuntimeRealTimeUs → config.runtimeViolationStrategy = .tsSetStmToError →
      execution.errorEvent = true ∧ thread.executed.length = k + 1 := by
  refine ⟨⟨fun h execution hmem hviolates => ?_,fun hkept => ?_⟩,fun k execution => error_last hjob hreach⟩
  · have hzero := h.lockedStep.withheld execution hmem hviolates.1 hviolates.2
    rw [publications_lockedStep hmem] at hzero
    exact absurd hzero (by decide)
  · have hconfigured : (clockBasedCheck name config).Configured config := ⟨rfl,rfl⟩
    have hclock := JobRuntimeCheck.enforced_executions hconfigured triggers haccepted
    have hkept' : ∀ trigger ∈ triggers, ¬((0 < config.maxRuntimeRealTimeUs ∧
        config.maxRuntimeRealTimeUs < trigger.2.executionTime) ∧ config.runtimeViolationStrategy.Withholds) := by
      intro trigger hmem
      have hduration := hdurations ▸ mem_map_of_mem hmem
      obtain ⟨execution,hexecution,hsame⟩ := mem_map.mp hduration
      rw [← hsame]
      exact hkept execution hexecution
    have hpublished := JobRuntimeCheck.publications_of_kept hconfigured rfl triggers haccepted hkept'
    refine ⟨hclock,⟨fun e hmem hlong hwithholds => ?_,fun e hmem hlong herror => ?_,fun k e hk hlong herror => ?_,
      fun e hmem _ => publications_lockedStep hmem⟩,?_⟩
    · exact absurd ⟨hlong,hwithholds⟩ (hkept e hmem)
    · exact absurd ⟨hlong,.inr herror⟩ (hkept e hmem)
    · exact (error_last hjob hreach hk hlong herror).2
    · rw [hpublished,map_publications fun e hmem => publications_lockedStep hmem]
      have hsame := congrArg List.length hdurations
      rw [length_map,length_map] at hsame
      rw [hsame]

/-- A job of ten microseconds at most. -/
def sampleJob (strategy : TimeViolationStrategy) : JobConfiguration := ⟨10,10,strategy⟩

def sampleUuid : String := "01234567-89ab-cdef-0123-456789abcdef"

def lockedStepRun (strategy : TimeViolationStrategy) (duration : Int) : Option (TaskThread Nat) :=
  (lockedStepJob ⟨fun _ => .errNoError,fun _ => .errNoError⟩ "job" sampleUuid (sampleJob strategy)).bind fun job =>
    runActions TaskThread.step job (.create::TaskThread.firingTick 10 ++ TaskThread.workerSteps 7 duration)

def sampleTriggers (duration : Int) : List (Int × JobAnswers) :=
  [(10,⟨.errNoError,.errNoError,duration,.errNoError,.errNoError⟩)]

private theorem lockedStepRun_reaches {strategy : TimeViolationStrategy} {duration : Int} {thread : TaskThread Nat}
    (h : lockedStepRun strategy duration = some thread) : ∃ job : TaskThread Nat,
    lockedStepJob ⟨fun _ => .errNoError,fun _ => .errNoError⟩ "job" sampleUuid (sampleJob strategy) = some job ∧
      Reaches TaskThread.step anyAction job thread := by
  obtain ⟨job,hjob,hrun⟩ := bind_eq_some_iff.mp h
  exact ⟨job,hjob,reaches_of_runActions hrun⟩

theorem enforced_alike_short_execution : ∃ thread : TaskThread Nat,
    lockedStepRun .tsSkipOutputPublish 5 = some thread ∧ lockedStepExecutions thread ≠ [] ∧
      EnforcedAlike "job" (sampleJob .tsSkipOutputPublish) (sampleTriggers 5) thread := by
  have hone : (lockedStepRun .tsSkipOutputPublish 5).any (fun thread =>
      lockedStepExecutions thread == [⟨5,forwardCallToJob 10,false⟩]) = true := by decide +kernel
  obtain ⟨thread,hrun,hone⟩ := (any_eq_true _ _).mp hone
  have hone : lockedStepExecutions thread = [⟨5,forwardCallToJob 10,false⟩] := by simpa using hone
  obtain ⟨job,hjob,hreach⟩ := lockedStepRun_reaches hrun
  refine ⟨thread,hrun,by simp [hone],(enforced_alike_iff _ "job" sampleUuid _ (sampleTriggers 5) hjob hreach
    (by simp [sampleTriggers]) (by simp [hone,sampleTriggers])).1.mpr fun execution hmem hviolates => ?_⟩
  rw [hone,mem_singleton] at hmem
  subst hmem
  exact absurd hviolates.1.2 (by decide)

/-- A job that skips its output after a violation publishes it under the locked step scheduler. -/
theorem locked_step_publishes_violation : ∃ thread : TaskThread Nat,
    lockedStepRun .tsSkipOutputPublish 20 = some thread ∧
      ¬EnforcedAlike "job" (sampleJob .tsSkipOutputPublish) (sampleTriggers 20) thread := by
  have hone : (lockedStepRun .tsSkipOutputPublish 20).any (fun thread =>
      lockedStepExecutions thread == [⟨20,forwardCallToJob 10,false⟩]) = true := by decide +kernel
  obtain ⟨thread,hrun,hone⟩ := (any_eq_true _ _).mp hone
  have hone : lockedStepExecutions thread = [⟨20,forwardCallToJob 10,false⟩] := by simpa using hone
  refine ⟨thread,hrun,fun h => ?_⟩
  have hmem : (⟨20,forwardCallToJob 10,false⟩ : JobExecution) ∈ lockedStepExecutions thread := by simp [hone]
  have hzero := h.lockedStep.withheld _ hmem ⟨by decide,by decide⟩ (.inl rfl)
  rw [publications_lockedStep hmem] at hzero
  exact absurd hzero (by decide)

end FepParticipant.Scheduler
