import FepParticipant.StateMachine.EventWorker

/-! The callbacks of every performed transition: along the table, in order, and with an
`ErrorEvent` behind each failure that `SetState` returns. -/
namespace FepParticipant.StateMachine
open List Machine

def Phase.rank : Phase → Nat
  | .request => 0
  | .exit => 1
  | .internalExit => 2
  | .stateChange => 3
  | .cleanUp => 4
  | .internalCleanUp => 5
  | .internalEntry => 6
  | .entry => 7

def CallbackResults.ofPhase (answers : CallbackResults) : Phase → List Result
  | .request => answers.request
  | .exit => answers.exit
  | .internalExit => [answers.internalExit]
  | .stateChange => [.errNoError]
  | .cleanUp => answers.cleanUp
  | .internalCleanUp => [answers.internalCleanUp]
  | .internalEntry => [answers.internalEntry]
  | .entry => answers.entry

def callsOf (phase : Phase) (calls : List Call) : List Result := (calls.filter (·.phase = phase)).map (·.result)

namespace Transition

def Refused (transition : Transition) : Prop :=
  ∃ call ∈ transition.change.calls, call.phase = .request ∧ call.result ≠ .errNoError

def FailsIn (transition : Transition) (phases : List Phase) : Prop :=
  ∃ call ∈ transition.change.calls, call.phase ∈ phases ∧ call.result ≠ .errNoError

def reported : List Phase := [.exit,.internalExit,.cleanUp,.internalCleanUp,.entry]

/-- The phases of an executed transition. -/
def runsPhase (transition : Transition) : Phase → Bool
  | .request => hasRequestCallback transition.change.newState
  | .cleanUp | .internalCleanUp => callsCleanUp transition.change.oldState transition.change.newState
  | _ => true

/-- Every listener of the phases is called, the phases in their order. -/
structure InOrder (transition : Transition) : Prop where
  sorted : transition.change.calls.Pairwise fun first second => first.phase.rank ≤ second.phase.rank
  complete : ∀ phase, callsOf phase transition.change.calls =
    if transition.runsPhase phase then transition.answers.ofPhase phase else []

structure Disciplined (transition : Transition) : Prop where
  edge : transition.event.newState transition.change.oldState = some transition.change.newState
  refused : transition.considered = true → transition.Refused →
    transition.change.state = transition.change.oldState ∧ ∀ call ∈ transition.change.calls, call.phase = .request
  inOrder : transition.change.executed = true → transition.InOrder

end Transition

def Follows : State → List Transition → State → Prop
  | first, [], last => first = last
  | first, transition::transitions, last =>
    transition.change.oldState = first ∧ Follows transition.change.state transitions last

theorem Follows.append {first last : State} {transitions : List Transition} {transition : Transition}
    (h : Follows first transitions last) (hold : transition.change.oldState = last) :
    Follows first (transitions ++ [transition]) transition.change.state := by
  induction transitions generalizing first with
  | nil => exact ⟨hold.trans h.symm,rfl⟩
  | cons head transitions ih => exact ⟨h.1,ih h.2⟩

def lastExecuted (transitions : List Transition) : Option Transition :=
  (transitions.filter (·.change.executed)).getLast?

/-- All phases, in the order of a state change. -/
def Phase.all : List Phase :=
  [.request,.exit,.internalExit,.stateChange,.cleanUp,.internalCleanUp,.internalEntry,.entry]

section Calls

variable {machine : Machine} {newState : State} {answers : CallbackResults}
variable {event : StateTransition}

theorem callsOf_append (phase : Phase) (calls rest : List Call) :
    callsOf phase (calls ++ rest) = callsOf phase calls ++ callsOf phase rest := by
  simp [callsOf]

theorem callsOf_notifications (phase other : Phase) (results : List Result) :
    callsOf phase (notifications other results) = if other = phase then results else [] := by
  induction results with
  | nil => simp [notifications,callsOf]
  | cons result results ih =>
    simp only [notifications,callsOf,map_cons,filter_cons] at ih ⊢
    split <;> simp_all

private theorem phase_of_mem_notifications {phase : Phase} {results : List Result} {call : Call}
    (h : call ∈ notifications phase results) : call.phase = phase := by
  obtain ⟨result,-,rfl⟩ := mem_map.mp h
  rfl

theorem sorted_byPhase (results : Phase → List Result) :
    (Phase.all.flatMap fun phase => notifications phase (results phase)).Pairwise
      fun first second => first.phase.rank ≤ second.phase.rank := by
  rw [pairwise_flatMap]
  constructor
  · intro phase _
    apply pairwise_of_forall_mem_list
    intro first hfirst second hsecond
    have hrank : first.phase.rank = second.phase.rank := by
      rw [phase_of_mem_notifications hfirst,phase_of_mem_notifications hsecond]
    exact Nat.le_of_eq hrank
  · have hall : Phase.all.Pairwise fun first second => first.rank ≤ second.rank := by decide
    apply hall.imp
    intro phase other hle first hfirst second hsecond
    rwa [phase_of_mem_notifications hfirst,phase_of_mem_notifications hsecond]

private theorem callsOf_byPhase (results : Phase → List Result) (phase : Phase) :
    callsOf phase (Phase.all.flatMap fun phase => notifications phase (results phase)) = results phase := by
  cases phase <;> simp [Phase.all,callsOf_append,callsOf_notifications]

private theorem executed_byPhase (event : StateTransition) (considered : Bool)
    (hdone : machine.initialStateChangeDone = true) :
    notifications .request (machine.requests newState answers) ++ machine.changeCalls newState answers =
    Phase.all.flatMap fun phase => notifications phase
      (if Transition.runsPhase ⟨event,considered,answers,machine.setState newState answers⟩ phase then
        answers.ofPhase phase else []) := by
  cases hcleanUp : callsCleanUp machine.state newState <;>
  cases hrequest : hasRequestCallback newState <;>
  simp [Machine.requests,Machine.changeCalls,hdone,hcleanUp,hrequest,Phase.all,notifications,
    Transition.runsPhase,CallbackResults.ofPhase]

theorem inOrder_setState (event : StateTransition) (considered : Bool) (hdone : machine.initialStateChangeDone = true)
    (hexecutes : machine.executes newState answers = true) :
    Transition.InOrder ⟨event,considered,answers,machine.setState newState answers⟩ := by
  constructor
  · rw [setState_calls_of_executes hexecutes,executed_byPhase event considered hdone]
    exact sorted_byPhase _
  · intro phase
    rw [setState_calls_of_executes hexecutes,executed_byPhase event considered hdone,callsOf_byPhase]

theorem mem_callsOf {call : Call} {calls : List Call} (h : call ∈ calls) : call.result ∈ callsOf call.phase calls :=
  mem_map_of_mem (mem_filter.mpr ⟨h,by simp⟩)

section
variable (hdone : machine.initialStateChangeDone = true)
include hdone

theorem failed_of_failsIn {considered : Bool} (hexecutes : machine.executes newState answers = true)
    (hfails : Transition.FailsIn ⟨event,considered,answers,machine.setState newState answers⟩
      Transition.reported) : (machine.setState newState answers).result ≠ .errNoError := by
  obtain ⟨call,hcall,hphase,hfailed⟩ := hfails
  have hresult := mem_callsOf hcall
  rw [(inOrder_setState event considered hdone hexecutes).complete] at hresult
  rw [setState_result_of_executes hexecutes]
  intro hok
  obtain ⟨hexit,hcleanUp,hentry⟩ := changeResult_eq_ok_iff.mp hok
  rw [exitResult_eq_ok_iff] at hexit
  rw [cleanUpResult_eq_ok_iff] at hcleanUp
  rw [notifyListener_eq_ok_iff] at hentry
  simp only [Transition.reported,mem_cons,not_mem_nil,or_false] at hphase
  rcases hphase with hp | hp | hp | hp | hp <;>
    simp only [hp,Transition.runsPhase,CallbackResults.ofPhase,setState_oldState,
      setState_newState,if_true] at hresult
  · exact hfailed (hexit hdone _ (mem_cons_of_mem _ hresult))
  · exact hfailed (hexit hdone _ (mem_cons.mpr (.inl (mem_singleton.mp hresult))))
  · split at hresult
    · rename_i hcalls
      exact hfailed (hcleanUp hcalls _ (mem_cons_of_mem _ hresult))
    · cases hresult
  · split at hresult
    · rename_i hcalls
      exact hfailed (hcleanUp hcalls _ (mem_cons.mpr (.inl (mem_singleton.mp hresult))))
    · cases hresult
  · exact hfailed (hentry _ hresult)

private theorem not_executes_of_refused (hconsider : machine.considerRequestResult = true)
    (hrefused : Transition.Refused ⟨event,true,answers,machine.setState newState answers⟩) :
    machine.executes newState answers = false := by
  cases hexecutes : machine.executes newState answers with
  | false => rfl
  | true =>
    obtain ⟨call,hcall,hphase,hfailed⟩ := hrefused
    have hresult := mem_callsOf hcall
    rw [(inOrder_setState event true hdone hexecutes).complete,hphase] at hresult
    have hok : notifyListener (machine.requests newState answers) = .errNoError := by
      simpa [hconsider] using (executes_iff.mp hexecutes).2
    rw [notifyListener_eq_ok_iff] at hok
    refine absurd (hok call.result ?_) hfailed
    simp only [Machine.requests,hdone,Bool.true_and]
    exact hresult

theorem disciplined_setState (hvalid : event.newState machine.state = some newState) :
    Transition.Disciplined ⟨event,machine.considerRequestResult,answers,machine.setState newState answers⟩ where
  edge := hvalid
  refused hconsider hrefused := by
    have hconsider : machine.considerRequestResult = true := hconsider
    rw [hconsider] at hrefused
    have hnot := not_executes_of_refused hdone hconsider hrefused
    exact ⟨by simp [setState_state,hnot],setState_calls_of_not_executes hnot⟩
  inOrder hexecuted := inOrder_setState event _ hdone hexecuted

end

end Calls

namespace RunningMachine
open Library

/-- An `ErrorEvent` waits, or its handler or that of the failed transition is running. -/
def ErrorFollows (s : RunningMachine) : Prop :=
  .stError ∈ s.machine.queue ∨ s.worker = .performing .stError ∨
    ∃ result, s.worker = .performed result ∧ result ≠ .errNoError

/-- A failure in the transition into the current state is followed by an `ErrorEvent`, if the table has one for it. -/
def ErrorsPropagate (s : RunningMachine) : Prop :=
  ∀ transition, lastExecuted s.transitions = some transition → transition.FailsIn Transition.reported →
    s.ErrorFollows ∨ s.machine.state = .fsStartup ∨ s.machine.state = .fsShutdown

structure DisciplineInv (s : RunningMachine) : Prop where
  done : s.machine.initialStateChangeDone = true
  accepts : s.shutdown = .notCalled → s.machine.ignoreEvents = false
  follows : Follows .fsStartup s.transitions s.machine.state
  disciplined : ∀ transition ∈ s.transitions, transition.Disciplined
  errors : s.shutdown = .notCalled → s.ErrorsPropagate

variable {s t : RunningMachine} {action : Action}

theorem DisciplineInv.of_frame (h : s.DisciplineInv)
    (hdone : t.machine.initialStateChangeDone = s.machine.initialStateChangeDone)
    (hstate : t.machine.state = s.machine.state) (htransitions : t.transitions = s.transitions)
    (haccepts : t.shutdown = .notCalled → t.machine.ignoreEvents = false)
    (herrors : t.shutdown = .notCalled → t.ErrorsPropagate) : t.DisciplineInv where
  done := hdone.trans h.done
  accepts := haccepts
  follows := by
    rw [htransitions,hstate]
    exact h.follows
  disciplined := by
    rw [htransitions]
    exact h.disciplined
  errors := herrors

theorem ErrorsPropagate.of_follows (h : s.ErrorsPropagate)
    (hstate : t.machine.state = s.machine.state) (htransitions : t.transitions = s.transitions)
    (hfollows : s.ErrorFollows → s.machine.state ≠ .fsStartup → s.machine.state ≠ .fsShutdown →
      t.ErrorFollows) : t.ErrorsPropagate := by
  intro transition hlast hfails
  rw [htransitions] at hlast
  rw [hstate]
  by_cases hstartup : s.machine.state = .fsStartup
  · exact .inr (.inl hstartup)
  by_cases hshutdown : s.machine.state = .fsShutdown
  · exact .inr (.inr hshutdown)
  rcases h transition hlast hfails with herror | hrest
  · exact .inl (hfollows herror hstartup hshutdown)
  · exact .inr hrest

theorem disciplineInv_enqueue (h : s.DisciplineInv) (event : StateTransition) : (s.enqueue event).DisciplineInv := by
  refine h.of_frame rfl rfl rfl h.accepts fun hpos => (h.errors hpos).of_follows rfl rfl ?_
  rintro (herror | hworker) - -
  · exact .inl (mem_enqueue event herror)
  · exact .inr hworker

private theorem lastExecuted_append (transitions : List Transition) (transition : Transition) :
    lastExecuted (transitions ++ [transition]) =
      if transition.change.executed then some transition else lastExecuted transitions := by
  unfold lastExecuted
  cases hexecuted : transition.change.executed <;> simp [hexecuted]

section
variable (h : s.DisciplineInv)
include h

private theorem disciplineInv_changed {event : StateTransition} {newState : State} {answers : CallbackResults}
    (hvalid : event.newState s.machine.state = some newState) :
    (s.changeState event newState answers).DisciplineInv where
  done := h.done
  accepts := h.accepts
  follows := h.follows.append rfl
  disciplined := by
    intro transition htransition
    rcases mem_append.mp htransition with hold | hnew
    · exact h.disciplined transition hold
    · rw [mem_singleton.mp hnew]
      exact disciplined_setState h.done hvalid
  errors := by
    intro _ transition hlast hfails
    refine .inl (.inr (.inr ⟨_,rfl,?_⟩))
    cases hexecutes : s.machine.executes newState answers with
    | false => exact setState_failed_of_not_executes hexecutes
    | true =>
      rw [changeState,lastExecuted_append,if_pos (by exact hexecutes)] at hlast
      cases hlast
      exact failed_of_failsIn h.done hexecutes hfails

theorem disciplineInv_worker (hcase : WorkerCase s action t) : t.DisciplineInv := by
  cases hcase with
  | @dequeued event queue waiting head =>
    refine h.of_frame rfl rfl rfl h.accepts fun hpos => (h.errors hpos).of_follows rfl rfl ?_
    rintro (herror | hworker | ⟨_,hworker,-⟩) - -
    · rw [head,mem_cons] at herror
      rcases herror with rfl | herror
      · exact .inr (.inl rfl)
      · exact .inl herror
    · simp [waiting] at hworker
    · simp [waiting] at hworker
  | @ignored event answers performing invalid =>
    refine h.of_frame rfl rfl rfl h.accepts fun hpos => (h.errors hpos).of_follows rfl rfl ?_
    rintro (herror | hworker | ⟨_,hworker,-⟩) hstartup hshutdown
    · exact .inl herror
    · -- the ErrorEvent is ignored in FS_STARTUP and FS_SHUTDOWN only
      obtain rfl : event = .stError := by simpa [performing] using hworker
      simp [StateTransition.newState_stError hstartup hshutdown] at invalid
    · simp [performing] at hworker
  | changed performing valid => exact disciplineInv_changed h valid
  | @finished result performed =>
    unfold finishHandler
    split
    · refine h.of_frame rfl rfl rfl h.accepts fun hpos _ _ _ => .inl (.inl ?_)
      rw [enqueue_queue (s := s.setStateReached) _ (h.accepts hpos)]
      exact mem_append_right _ (mem_singleton_self _)
    · rename_i hok
      refine h.of_frame rfl rfl rfl h.accepts fun hpos => (h.errors hpos).of_follows rfl rfl ?_
      rintro (herror | hworker | ⟨other,hworker,hfailed⟩) - -
      · exact .inl herror
      · simp [performed] at hworker
      · obtain rfl : result = other := by simpa [performed] using hworker
        simp [hfailed] at hok

private theorem disciplineInv_performShutdown (hstep : s.performShutdown = some t) : t.DisciplineInv := by
  obtain ⟨hcalled,hstate,htransitions,hdone,-⟩ := performShutdown_frame hstep
  exact h.of_frame hdone hstate htransitions (fun hpos => absurd hpos hcalled)
    fun hpos => absurd hpos hcalled

private theorem disciplineInv_step (hstep : s.step action = some t) : t.DisciplineInv := by
  rcases step_cases hstep with ⟨event,-,rfl⟩ | hcase | ⟨-,hshutdown⟩
  · exact disciplineInv_enqueue h event
  · exact disciplineInv_worker h hcase
  · exact disciplineInv_performShutdown h hshutdown

end

private theorem disciplineInv_fireup (answers : CallbackResults) : (fireup answers).DisciplineInv where
  done := rfl
  accepts _ := rfl
  follows := by
    have hstate : (fireup answers).machine.state = .fsStartup := by
      simp [fireup,Machine.fireupStateMachine,setState_state,Machine.new]
    exact hstate.symm
  disciplined := by
    intro transition htransition
    cases htransition
  errors := by
    intro _ transition hlast
    cases hlast

/-- In every run each performed transition follows the table, starts where the last one ended, stops at a refused
request, and notifies the listeners in order; unless `PerformShutdown` is called, a reported failure has an
`ErrorEvent` behind it, and the machine rests behind one in `FS_STARTUP` and `FS_SHUTDOWN` only. -/
theorem transitions_disciplined {answers : CallbackResults} {s : RunningMachine}
    (hreach : Reaches step anyAction (fireup answers) s) : Follows .fsStartup s.transitions s.machine.state ∧
    (∀ transition ∈ s.transitions, transition.Disciplined) ∧
    (s.shutdown = .notCalled → s.ErrorsPropagate ∧ (s.worker = .waiting → s.machine.queue = [] → ∀ transition,
        lastExecuted s.transitions = some transition → transition.FailsIn Transition.reported →
        s.machine.state = .fsStartup ∨ s.machine.state = .fsShutdown)) := by
  have hinv : s.DisciplineInv :=
    hreach.invariant (disciplineInv_fireup answers) fun _ _ _ h _ hs => disciplineInv_step h hs
  refine ⟨hinv.follows,hinv.disciplined,fun hpos => ⟨hinv.errors hpos,?_⟩⟩
  intro hworker hqueue transition hlast hfails
  rcases hinv.errors hpos transition hlast hfails with herror | hrest
  · simp [ErrorFollows,hworker,hqueue] at herror
  · exact hrest

def RestsAfterFailure (s : RunningMachine) (phases : List Phase) : Prop :=
  s.shutdown = .notCalled ∧ s.worker = .waiting ∧ s.machine.queue = [] ∧
    ∃ transition ∈ lastExecuted s.transitions, transition.FailsIn phases

instance (s : RunningMachine) (phases : List Phase) : Decidable (s.RestsAfterFailure phases) := by
  unfold RestsAfterFailure Transition.FailsIn
  infer_instance

/-- The registered entry listener of `FS_INITIALIZING` fails; the `ErrorEvent` leads to `FS_ERROR`. -/
theorem transitions_disciplined_entry_failure : ∃ s,
    runActions step (fireup quietAnswers) (.event .stStartupDone::handleNext quietAnswers ++ .event .stInitialize ::
        handleNext {quietAnswers with entry := [.errFailed]} ++ handleNext quietAnswers) = some s ∧
    s.machine.state = .fsError ∧ (∀ transition ∈ s.transitions, transition.Disciplined) ∧
    Follows .fsStartup s.transitions .fsError := by
  let run := runActions step (fireup quietAnswers)
    (.event .stStartupDone::handleNext quietAnswers ++ .event .stInitialize ::
      handleNext {quietAnswers with entry := [.errFailed]} ++ handleNext quietAnswers)
  have hfacts : run.any (fun s => s.machine.state == .fsError) = true := by decide +kernel
  obtain ⟨s,hs,hstate⟩ := (Option.any_eq_true _ _).mp hfacts
  rw [beq_iff_eq] at hstate
  obtain ⟨hfollows,hdisciplined,-⟩ := transitions_disciplined (reaches_of_runActions hs)
  exact ⟨s,hs,hstate,hdisciplined,hstate ▸ hfollows⟩

/-- The machine rests in `FS_INITIALIZING` behind a failed internal entry and in `FS_SHUTDOWN`
behind a failed entry, and a restart asks no request listener. -/
theorem failures_without_error : (∃ s, Reaches step anyAction (fireup quietAnswers) s ∧
      s.RestsAfterFailure [.internalEntry] ∧ s.machine.state = .fsInitializing) ∧
    (∃ s, Reaches step anyAction (fireup quietAnswers) s ∧ s.RestsAfterFailure [.entry] ∧
      s.machine.state = .fsShutdown) ∧
    ∃ s, Reaches step anyAction (fireup quietAnswers) s ∧ ∃ transition ∈ s.transitions,
      transition.change.executed = true ∧ transition.answers.request = [.errNoError] ∧
        callsOf .request transition.change.calls = [] := by
  let intoIdle : List Action := .event .stStartupDone::handleNext quietAnswers
  refine ⟨?_,?_,?_⟩
  · apply exists_of_runActions (intoIdle ++ Action.event .stInitialize ::
      handleNext {quietAnswers with internalEntry := .errFailed})
    decide +kernel
  · apply exists_of_runActions (intoIdle ++ Action.event .stShutdown ::
      handleNext {quietAnswers with entry := [.errFailed]} ++ [Action.dequeue,.perform quietAnswers])
    decide +kernel
  · apply exists_of_runActions (intoIdle ++ Action.event .stRestart ::
      handleNext {quietAnswers with request := [.errNoError]})
    decide +kernel

end RunningMachine
end FepParticipant.StateMachine
