import FepParticipant.StateMachine.EventWorker

/-! `PerformShutdown` against the events of other threads: when its loop can come to wait for
a shutdown that no event brings about. -/
namespace FepParticipant.StateMachine
open List Machine

/-- The events `PerformShutdown` has still to enqueue, once it has looked at the state. -/
def ShutdownPosition.remaining : ShutdownPosition → Option (List StateTransition)
  | .enqueueing events => some events
  | .awaiting => some []
  | _ => none

/-- Request results are overruled and events accepted again. -/
def ShutdownPosition.Accepts (position : ShutdownPosition) : Prop :=
  position = .accepting ∨ ∃ events, position.remaining = some events

namespace RunningMachine
open Library
variable {answers : CallbackResults} {newState : State}

/-- The loop of `PerformShutdown` repeats the `ShutdownEvent`, which the table ignores, and
nothing else is left to do. -/
def Swallowed (s : RunningMachine) : Prop :=
  s.shutdown = .awaiting ∧ s.worker = .waiting ∧ s.machine.queue = [] ∧ s.machine.state.IsActive

instance (s : RunningMachine) : Decidable s.Swallowed := by
  unfold Swallowed
  infer_instance

/-- The events waiting in the queue, and those `PerformShutdown` has still to enqueue. -/
def upcoming (s : RunningMachine) : List StateTransition := s.machine.queue ++ s.shutdown.remaining.getD []

def HasRescue (s : RunningMachine) : Prop := ∃ event ∈ s.upcoming, event.LeadsOut

instance (s : RunningMachine) : Decidable s.HasRescue := by
  unfold HasRescue
  infer_instance

def CallbackFails (s : RunningMachine) (answers : CallbackResults) : Prop :=
  (s.machine.initialStateChangeDone = true ∧ ∃ result ∈ answers.internalExit::answers.exit, result ≠ .errNoError) ∨
  ∃ result ∈ answers.entry, result ≠ .errNoError

instance (s : RunningMachine) (answers : CallbackResults) : Decidable (s.CallbackFails answers) := by
  unfold CallbackFails
  infer_instance

/-- An `InitializeEvent` performed behind the look at the state has a rescue. -/
def InitializesRescued (s : RunningMachine) : Action → Prop
  | .perform answers => s.shutdown.remaining.isSome → s.worker = .performing .stInitialize →
      s.machine.state = .fsIdle → s.HasRescue ∨ s.CallbackFails answers
  | _ => True

instance (s : RunningMachine) (action : Action) : Decidable (s.InitializesRescued action) := by
  cases action <;> unfold InitializesRescued <;> infer_instance

def LeavesActive (s : RunningMachine) : Prop :=
  s.HasRescue ∨ (∃ event, s.worker = .performing event ∧ event.LeadsOut) ∨
    ∃ result, s.worker = .performed result ∧ result ≠ .errNoError

structure ShutdownInv (s : RunningMachine) : Prop where
  accepts : s.shutdown.Accepts → s.machine.ignoreEvents = false
  overrules : s.shutdown = .overruling ∨ s.shutdown.Accepts → s.machine.considerRequestResult = false
  leaves : s.shutdown.remaining.isSome → s.machine.state.IsActive → s.LeavesActive

variable {s t : RunningMachine} {action : Action}

theorem HasRescue.mono (h : s.HasRescue) (hupcoming : s.upcoming ⊆ t.upcoming) : t.HasRescue := by
  obtain ⟨event,hevent,hout⟩ := h
  exact ⟨event,hupcoming hevent,hout⟩

theorem changeResult_initializing_iff :
    s.machine.changeResult .fsInitializing answers ≠ .errNoError ↔ s.CallbackFails answers := by
  have hcleanUp : s.machine.cleanUpResult .fsInitializing answers = .errNoError := by
    simp [Machine.cleanUpResult,callsCleanUp]
  rw [Ne,changeResult_eq_ok_iff,exitResult_eq_ok_iff,notifyListener_eq_ok_iff]
  simp only [hcleanUp,true_and,CallbackFails,not_and_or,not_forall,exists_prop]

theorem accepts_of_remaining {position : ShutdownPosition} (h : position.remaining.isSome) : position.Accepts :=
  .inr (Option.isSome_iff_exists.mp h)

theorem ShutdownInv.executes (h : s.ShutdownInv) (hshutdown : s.shutdown.Accepts) (newState : State)
    (answers : CallbackResults) : s.machine.executes newState answers = true :=
  executes_iff.mpr ⟨h.accepts hshutdown,.inr (h.overrules (.inr hshutdown))⟩

variable {event : StateTransition}

theorem changeState_state (hexecutes : s.machine.executes newState answers = true) :
    (s.changeState event newState answers).machine.state = newState := by
  simp only [changeState,setState_state,hexecutes,if_true]

theorem ShutdownInv.of_frame (h : s.ShutdownInv) (hshutdown : t.shutdown = s.shutdown)
    (hignore : t.machine.ignoreEvents = s.machine.ignoreEvents)
    (hconsider : t.machine.considerRequestResult = s.machine.considerRequestResult)
    (hleaves : s.shutdown.remaining.isSome → t.machine.state.IsActive → t.LeavesActive) : t.ShutdownInv where
  accepts hpos := by
    rw [hignore]
    exact h.accepts (hshutdown ▸ hpos)
  overrules hpos := by
    rw [hconsider]
    exact h.overrules (hshutdown ▸ hpos)
  leaves hpos hactive := hleaves (hshutdown ▸ hpos) hactive

private theorem upcoming_enqueue : s.upcoming ⊆ (s.enqueue event).upcoming := by
  apply append_subset.mpr
  constructor
  · intro other hother
    exact mem_append_left _ (mem_enqueue event hother)
  · exact subset_append_right _ _

theorem shutdownInv_enqueue (h : s.ShutdownInv) : (s.enqueue event).ShutdownInv := by
  refine h.of_frame rfl rfl rfl fun hpos hactive => ?_
  rcases h.leaves hpos hactive with hrescue | hrest
  · exact .inl (hrescue.mono (upcoming_enqueue))
  · exact .inr hrest

private theorem shutdownInv_changed (h : s.ShutdownInv) (hallowed : s.InitializesRescued (.perform answers))
    (hworker : s.worker = .performing event) (hvalid : event.newState s.machine.state = some newState) :
    (s.changeState event newState answers).ShutdownInv := by
  refine h.of_frame rfl rfl rfl fun hpos hactive => ?_
  have hexecutes := h.executes (accepts_of_remaining hpos) newState answers
  rw [changeState_state hexecutes] at hactive
  rcases StateTransition.active_entered hvalid hactive with hwas | ⟨hidle,rfl⟩
  · rcases h.leaves hpos hwas with hrescue | ⟨other,hother,hout⟩ | ⟨result,hresult,-⟩
    · exact .inl (hrescue.mono (List.Subset.refl _))
    · obtain rfl : event = other := by simpa [hworker] using hother
      exact absurd hactive (hout.not_active hvalid)
    · simp [hworker] at hresult
  · -- an active state is entered anew; this is where the condition is needed
    rcases hallowed hpos hworker hidle with hrescue | hfails
    · exact .inl (hrescue.mono (List.Subset.refl _))
    · obtain rfl : newState = .fsInitializing := by simpa [StateTransition.newState,hidle] using hvalid.symm
      refine .inr (.inr ⟨_,rfl,?_⟩)
      rw [setState_result_of_executes hexecutes]
      exact changeResult_initializing_iff.mpr hfails

theorem shutdownInv_worker (h : s.ShutdownInv) (hallowed : s.InitializesRescued action)
    (hcase : WorkerCase s action t) : t.ShutdownInv := by
  cases hcase with
  | @dequeued event queue waiting head =>
    refine h.of_frame rfl rfl rfl fun hpos hactive => ?_
    rcases h.leaves hpos hactive with ⟨other,hother,hout⟩ | ⟨_,hother,_⟩ | ⟨_,hother,_⟩
    · rw [upcoming,head,cons_append,mem_cons] at hother
      rcases hother with rfl | hother
      · exact .inr (.inl ⟨_,rfl,hout⟩)
      · exact .inl ⟨other,hother,hout⟩
    · simp [waiting] at hother
    · simp [waiting] at hother
  | @ignored event answers performing invalid =>
    refine h.of_frame rfl rfl rfl fun hpos hactive => ?_
    rcases h.leaves hpos hactive with hrescue | ⟨other,hother,hout⟩ | ⟨_,hother,_⟩
    · exact .inl (hrescue.mono (List.Subset.refl _))
    · obtain rfl : event = other := by simpa [performing] using hother
      exact absurd invalid (hout.valid hactive)
    · simp [performing] at hother
  | changed performing valid => exact shutdownInv_changed h hallowed performing valid
  | @finished result performed =>
    unfold finishHandler
    split
    · refine h.of_frame rfl rfl rfl fun hpos hactive => ?_
      refine .inl ⟨.stError,mem_append_left _ ?_,.inr rfl⟩
      rw [enqueue_queue (s := s.setStateReached) _ (h.accepts (accepts_of_remaining hpos))]
      exact mem_append_right _ (mem_singleton_self _)
    · rename_i hok
      refine h.of_frame rfl rfl rfl fun hpos hactive => ?_
      rcases h.leaves hpos hactive with hrescue | ⟨_,hother,_⟩ | ⟨other,hother,hfailed⟩
      · exact .inl (hrescue.mono (List.Subset.refl _))
      · simp [performed] at hother
      · obtain rfl : result = other := by simpa [performed] using hother
        simp [hfailed] at hok

theorem upcoming_enqueueNext {events : List StateTransition}
    (hpos : s.shutdown = .enqueueing (event::events)) (hignore : s.machine.ignoreEvents = false) :
    (s.enqueueNext event events).upcoming = s.upcoming := by
  simp [upcoming,hpos,enqueueNext,enqueue_queue event hignore,ShutdownPosition.remaining]

theorem shutdownInv_performShutdown (h : s.ShutdownInv) (hstep : s.performShutdown = some t) : t.ShutdownInv := by
  cases hpos : s.shutdown with
  | notCalled =>
    obtain rfl := by simpa [performShutdown,hpos] using hstep.symm
    exact ⟨by simp [ShutdownPosition.Accepts,ShutdownPosition.remaining],
      by simp [ShutdownPosition.Accepts,ShutdownPosition.remaining],
      by simp [ShutdownPosition.remaining]⟩
  | ignoring =>
    obtain ⟨-,rfl⟩ := by simpa [performShutdown,hpos] using hstep
    exact ⟨by simp [ShutdownPosition.Accepts,ShutdownPosition.remaining],
      by simp [ShutdownPosition.Accepts,ShutdownPosition.remaining],
      by simp [ShutdownPosition.remaining]⟩
  | cleared =>
    obtain rfl := by simpa [performShutdown,hpos] using hstep.symm
    exact ⟨by simp [ShutdownPosition.Accepts,ShutdownPosition.remaining],fun _ => rfl,
      by simp [ShutdownPosition.remaining]⟩
  | overruling =>
    obtain rfl := by simpa [performShutdown,hpos] using hstep.symm
    exact ⟨fun _ => rfl,fun _ => h.overrules (.inl hpos),by simp [ShutdownPosition.remaining]⟩
  | accepting =>
    have haccepts : s.shutdown.Accepts := .inl hpos
    obtain rfl := by simpa [performShutdown,hpos] using hstep.symm
    refine ⟨fun _ => h.accepts haccepts,fun _ => h.overrules (.inr haccepts),fun _ hactive => ?_⟩
    refine .inl ⟨.stStop,mem_append_right _ ?_,.inl rfl⟩
    rcases (show _ ∨ _ ∨ _ from hactive) with hstate | hstate | hstate <;>
      simp only at hstate <;> simp [ShutdownPosition.remaining,shutdownEvents,hstate]
  | enqueueing events =>
    have hsome : s.shutdown.remaining.isSome := by simp [ShutdownPosition.remaining,hpos]
    have haccepts : s.shutdown.Accepts := accepts_of_remaining hsome
    cases events with
    | nil =>
      obtain rfl := by simpa [performShutdown,hpos] using hstep.symm
      refine ⟨fun _ => h.accepts haccepts,fun _ => h.overrules (.inr haccepts),fun _ hactive => ?_⟩
      rcases h.leaves hsome hactive with hrescue | hworker
      · exact .inl (hrescue.mono (by simp [upcoming,hpos,ShutdownPosition.remaining]))
      · exact .inr hworker
    | cons event events =>
      obtain rfl := by simpa [performShutdown,hpos] using hstep.symm
      refine ⟨fun _ => h.accepts haccepts,fun _ => h.overrules (.inr haccepts),fun _ hactive => ?_⟩
      rcases h.leaves hsome hactive with hrescue | hworker
      · refine .inl (hrescue.mono ?_)
        rw [upcoming_enqueueNext hpos (h.accepts haccepts)]
        exact List.Subset.refl _
      · exact .inr hworker
  | awaiting =>
    simp only [performShutdown,hpos] at hstep
    split at hstep
    · cases hstep
      exact ⟨by simp [ShutdownPosition.Accepts,ShutdownPosition.remaining],
        by simp [ShutdownPosition.Accepts,ShutdownPosition.remaining],
        by simp [ShutdownPosition.remaining]⟩
    · cases hstep
      exact shutdownInv_enqueue h
  | done => simp [performShutdown,hpos] at hstep

theorem shutdownInv_step (h : s.ShutdownInv) (hallowed : s.InitializesRescued action)
    (hstep : s.step action = some t) : t.ShutdownInv := by
  rcases step_cases hstep with ⟨event,-,rfl⟩ | hcase | ⟨-,hshutdown⟩
  · exact shutdownInv_enqueue h
  · exact shutdownInv_worker h hallowed hcase
  · exact shutdownInv_performShutdown h hshutdown

theorem shutdownInv_start (h : s.shutdown = .notCalled) : s.ShutdownInv :=
  ⟨by simp [h,ShutdownPosition.Accepts,ShutdownPosition.remaining],
    by simp [h,ShutdownPosition.Accepts,ShutdownPosition.remaining],
    by simp [h,ShutdownPosition.remaining]⟩

theorem ShutdownInv.not_swallowed (h : s.ShutdownInv) : ¬s.Swallowed := by
  rintro ⟨hpos,hworker,hqueue,hactive⟩
  have hleaves := h.leaves (by simp [hpos,ShutdownPosition.remaining]) hactive
  simp [LeavesActive,HasRescue,upcoming,hpos,hworker,hqueue,ShutdownPosition.remaining] at hleaves

/-- Nothing is left that leads out of the active state the machine is in. -/
structure Lost (s : RunningMachine) : Prop where
  waiting : s.worker = .waiting
  accepts : s.machine.ignoreEvents = false
  overrules : s.machine.considerRequestResult = false
  active : s.machine.state.IsActive
  position : s.shutdown.remaining.isSome
  norescue : ¬s.HasRescue

private theorem changeResult_quiet (machine : Machine) : machine.changeResult newState quietAnswers = .errNoError := by
  simp [changeResult_eq_ok_iff,exitResult_eq_ok_iff,cleanUpResult_eq_ok_iff,
    notifyListener_eq_ok_iff,quietAnswers]

theorem Lost.of_upcoming (h : s.Lost) (hwaiting : t.worker = .waiting)
    (hignore : t.machine.ignoreEvents = s.machine.ignoreEvents)
    (hconsider : t.machine.considerRequestResult = s.machine.considerRequestResult)
    (hactive : t.machine.state.IsActive) (hposition : t.shutdown.remaining.isSome)
    (hupcoming : t.upcoming ⊆ s.upcoming) : t.Lost :=
  ⟨hwaiting,hignore.trans h.accepts,hconsider.trans h.overrules,hactive,hposition,
    fun hrescue => h.norescue (hrescue.mono hupcoming)⟩

theorem Lost.handle {queue : List StateTransition} (h : s.Lost)
    (hqueue : s.machine.queue = event::queue) : ∃ t, Reaches step anyAction s t ∧ t.Lost ∧
      t.machine.queue = queue ∧ t.shutdown = s.shutdown := by
  have hnot : ¬event.LeadsOut := by
    intro hout
    exact h.norescue ⟨event,by simp [upcoming,hqueue],hout⟩
  have hupcoming : queue ++ s.shutdown.remaining.getD [] ⊆ s.upcoming := by
    simp [upcoming,hqueue]
  have hdequeue : s.step .dequeue = some (s.dequeue event queue) := by simp [step,h.waiting,hqueue]
  have hdequeued : Reaches step anyAction s (s.dequeue event queue) := .tail .refl trivial hdequeue
  cases hnew : event.newState s.machine.state with
  | none =>
    have hperform : (s.dequeue event queue).step (.perform quietAnswers) =
        some (s.dequeue event queue).ignoreEvent := by
      simp [step,dequeue,hnew]
    exact ⟨_,hdequeued.tail trivial hperform,h.of_upcoming rfl rfl rfl h.active h.position hupcoming,rfl,rfl⟩
  | some newState =>
    let changed := (s.dequeue event queue).changeState event newState quietAnswers
    have hexecutes : (s.dequeue event queue).machine.executes newState quietAnswers = true :=
      executes_iff.mpr ⟨h.accepts,.inr h.overrules⟩
    have hperform : (s.dequeue event queue).step (.perform quietAnswers) = some changed := by
      simp [step,dequeue,hnew,changed]
    have hstate : changed.machine.state = newState := changeState_state hexecutes
    have hworker : changed.worker = .performed .errNoError := by
      simp [changed,changeState,setState_result_of_executes hexecutes,changeResult_quiet]
    have hfinish : changed.step .finish = some changed.setStateReached := by
      simp [step,hworker,finishHandler]
    have hactive : newState.IsActive := by
      apply Classical.byContradiction
      intro hinactive
      exact hnot (StateTransition.active_left hnew h.active hinactive)
    refine ⟨_,(hdequeued.tail trivial hperform).tail trivial hfinish,
      h.of_upcoming rfl rfl rfl ?_ h.position hupcoming,rfl,rfl⟩
    show changed.machine.state.IsActive
    rw [hstate]
    exact hactive

theorem Lost.enqueueAll {events : List StateTransition} (h : s.Lost) (hpos : s.shutdown = .enqueueing events) :
    ∃ t, Reaches step anyAction s t ∧ t.Lost ∧ t.shutdown = .awaiting := by
  induction events generalizing s with
  | nil =>
    have hstep : s.step .performShutdown = some {s with shutdown := .awaiting} := by
      simp [step,performShutdown,hpos]
    refine ⟨_,.tail .refl trivial hstep,h.of_upcoming h.waiting rfl rfl h.active rfl ?_,rfl⟩
    simp [upcoming,hpos,ShutdownPosition.remaining]
  | cons event events ih =>
    have hstep : s.step .performShutdown = some (s.enqueueNext event events) := by
      simp [step,performShutdown,hpos]
    have hlost : (s.enqueueNext event events).Lost := by
      refine h.of_upcoming h.waiting rfl rfl h.active rfl ?_
      rw [upcoming_enqueueNext hpos h.accepts]
      exact List.Subset.refl _
    obtain ⟨t,hreach,ht⟩ := ih hlost rfl
    exact ⟨t,.head trivial hstep hreach,ht⟩

private theorem Lost.drain {queue : List StateTransition} (h : s.Lost) (hpos : s.shutdown = .awaiting)
    (hqueue : s.machine.queue = queue) : ∃ t, Reaches step anyAction s t ∧ t.Swallowed := by
  induction queue generalizing s with
  | nil => exact ⟨s,.refl,hpos,h.waiting,hqueue,h.active⟩
  | cons event queue ih =>
    obtain ⟨t,hreach,hlost,htail,hshutdown⟩ := h.handle hqueue
    obtain ⟨u,hrest,hswallowed⟩ := ih hlost (hshutdown.trans hpos) htail
    exact ⟨u,hreach.trans hrest,hswallowed⟩

private theorem Lost.swallowed (h : s.Lost) : ∃ t, Reaches step anyAction s t ∧ t.Swallowed := by
  obtain ⟨events,hevents⟩ := Option.isSome_iff_exists.mp h.position
  cases hpos : s.shutdown with
  | enqueueing events =>
    obtain ⟨t,hreach,hlost,hawaiting⟩ := h.enqueueAll hpos
    obtain ⟨u,hrest,hswallowed⟩ := hlost.drain hawaiting rfl
    exact ⟨u,hreach.trans hrest,hswallowed⟩
  | awaiting => exact h.drain hpos rfl
  | _ => simp [hpos,ShutdownPosition.remaining] at hevents

theorem ShutdownInv.lost (h : s.ShutdownInv) (hviolates : ¬s.InitializesRescued action)
    (hstep : s.step action = some t) : ∃ u, Reaches step anyAction t u ∧ u.Swallowed := by
  cases action with
  | perform answers =>
    simp only [InitializesRescued,Classical.not_imp,not_or] at hviolates
    obtain ⟨hpos,hworker,hidle,hnorescue,hquiet⟩ := hviolates
    have hnew : StateTransition.stInitialize.newState s.machine.state = some .fsInitializing := by
      rw [hidle]
      rfl
    obtain rfl : s.changeState .stInitialize .fsInitializing answers = t := by
      simpa [step,hworker,hnew] using hstep
    have hexecutes := h.executes (accepts_of_remaining hpos) .fsInitializing answers
    let changed := s.changeState .stInitialize .fsInitializing answers
    have hstate : changed.machine.state = .fsInitializing := changeState_state hexecutes
    have hok : s.machine.changeResult .fsInitializing answers = .errNoError :=
      not_not.mp (mt changeResult_initializing_iff.mp hquiet)
    have hfinish : changed.step .finish = some changed.setStateReached := by
      simp [changed,step,changeState,setState_result_of_executes hexecutes,hok,finishHandler]
    have hlost : changed.setStateReached.Lost :=
      ⟨rfl,h.accepts (accepts_of_remaining hpos),h.overrules (.inr (accepts_of_remaining hpos)),
        .inl hstate,hpos,fun hrescue => hnorescue (hrescue.mono (List.Subset.refl _))⟩
    obtain ⟨u,hreach,hswallowed⟩ := hlost.swallowed
    exact ⟨u,.head trivial hfinish hreach,hswallowed⟩
  | _ => exact absurd trivial hviolates

/-- The loop of `PerformShutdown` is left alone in an active state except in the runs in which every `InitializeEvent`
behind the look at the state has a rescue. -/
theorem shutdown_not_swallowed {start : RunningMachine} (hstart : start.shutdown = .notCalled)
    (hreach : Reaches step InitializesRescued start s) :
    ¬s.Swallowed ∧ ∀ action t, ¬s.InitializesRescued action → s.step action = some t →
      ∃ u, Reaches step anyAction t u ∧ u.Swallowed := by
  have hinv : s.ShutdownInv := hreach.invariant (shutdownInv_start hstart) fun _ _ _ h ha hs => shutdownInv_step h ha hs
  exact ⟨hinv.not_swallowed,fun _ _ hviolates hstep => hinv.lost hviolates hstep⟩

/-- `FS_IDLE` is reached and `PerformShutdown` finds it. -/
def shutdownInIdle : List Action :=
  .event .stStartupDone::handleNext quietAnswers ++ List.replicate 5 .performShutdown

/-- A shutdown in `FS_IDLE` among an `InitializeEvent` and a `StopEvent` of another thread. -/
theorem shutdown_not_swallowed_with_stop : ∃ s, runAllowed step InitializesRescued (fireup quietAnswers)
      (shutdownInIdle ++ [.event .stInitialize,.event .stStop,.performShutdown,.performShutdown] ++
        handleNext quietAnswers ++ handleNext quietAnswers) = some s ∧
    s.machine.state = .fsIdle ∧ s.machine.queue = [.stShutdown] ∧ ¬s.Swallowed := by
  let run := runAllowed step InitializesRescued (fireup quietAnswers)
    (shutdownInIdle ++ [Action.event .stInitialize,.event .stStop,.performShutdown,.performShutdown] ++
      handleNext quietAnswers ++ handleNext quietAnswers)
  have hfacts : run.any (fun s => s.machine.state == .fsIdle && s.machine.queue == [.stShutdown]) = true := by
    decide +kernel
  obtain ⟨s,hs,hfacts⟩ := (Option.any_eq_true _ _).mp hfacts
  simp only [Bool.and_eq_true,beq_iff_eq] at hfacts
  exact ⟨s,hs,hfacts.1,hfacts.2,(shutdown_not_swallowed rfl (reaches_of_runAllowed hs)).1⟩

/-- An `InitializeEvent` between the look at the state and the `ShutdownEvent`: the machine stays in
`FS_INITIALIZING` and the loop never ends. -/
theorem shutdown_swallowed : ∃ s, Reaches step anyAction (fireup quietAnswers) s ∧ s.Swallowed := by
  exact exists_of_runActions (shutdownInIdle ++ [Action.event .stInitialize,.performShutdown,.performShutdown] ++
      handleNext quietAnswers ++ [Action.dequeue,.perform quietAnswers]) (by decide +kernel)

end RunningMachine
end FepParticipant.StateMachine
