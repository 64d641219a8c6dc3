import FepParticipant.Components.ComponentRegistry
import FepParticipant.StateMachine.EventWorker

/-! The participant's internal state listener: which lifecycle calls the components get on the
edges of the state machine, over whole runs. -/
namespace FepParticipant.Components
open Library StateMachine Option RunningMachine

variable {κ : Type} (answer : Answer κ)

namespace ComponentRegistry
variable (registry : ComponentRegistry κ)

/-- `ProcessIdleEntry`; nothing is called out of `FS_INITIALIZING` and `FS_ERROR`. -/
def processIdleEntry (oldState : State) : ComponentRegistry κ :=
  let registry := if oldState = .fsReady then (registry.deinitializing answer).1 else registry
  if oldState = .fsRunning then ((registry.stop answer).1.deinitializing answer).1 else registry

/-- `ProcessErrorEntry`. -/
def processErrorEntry (oldState : State) : ComponentRegistry κ :=
  let registry := if oldState = .fsRunning then (registry.stop answer).1 else registry
  if oldState = .fsReady ∨ oldState = .fsRunning then (registry.deinitializing answer).1 else registry

/-- The internal entry listener; what it does besides the components returns `other`. -/
def processEntry (newState oldState : State) (other : Result) :
    ComponentRegistry κ × Result :=
  match newState with
  | .fsIdle => (registry.processIdleEntry answer oldState,other)
  | .fsInitializing => registry.initializing answer
  | .fsRunning => registry.start answer
  | .fsError => (registry.processErrorEntry answer oldState,other)
  | .fsStartup | .fsReady | .fsShutdown => (registry,other)

/-- The request listener of the module; `ProcessReadyRequest` is the one it overrides. -/
def processRequest (newState oldState : State) :
    ComponentRegistry κ × Result :=
  if newState = .fsReady ∧ oldState = .fsInitializing then registry.ready answer
  else (registry,.errNoError)

end ComponentRegistry

structure Participant (κ : Type) where
  running : RunningMachine
  registry : ComponentRegistry κ

/-- A step of the state machine; in a state change the other listeners answer, those in front of the module's and
those behind. -/
inductive ParticipantAction where
  | event (event : StateTransition)
  | dequeue
  | perform (before : List Result) (answers : CallbackResults)
  | finish
  | performShutdown

namespace Participant

/-- The participant after `FireupStateMachine`. -/
def fireup (answers : CallbackResults) (components : List κ) : Participant κ := ⟨.fireup answers,.new components⟩

def request (p : Participant κ) (newState : State) : ComponentRegistry κ × Result :=
  if p.running.machine.ignoreEvents || !p.running.machine.initialStateChangeDone ||
      !hasRequestCallback newState then (p.registry,.errNoError)
  else p.registry.processRequest answer newState p.running.machine.state

def entry (p : Participant κ) (newState : State) (other : Result) : ComponentRegistry κ × Result :=
  (p.request answer newState).1.processEntry answer newState p.running.machine.state other

def answersOf (p : Participant κ) (newState : State) (before : List Result) (answers : CallbackResults) :
    CallbackResults :=
  { answers with
    request := before ++ (p.request answer newState).2::answers.request
    internalEntry := (p.entry answer newState answers.internalEntry).2 }

def executes (p : Participant κ) (newState : State) (before : List Result) (answers : CallbackResults) :
    Bool :=
  p.running.machine.executes newState (p.answersOf answer newState before answers)

def changeState (p : Participant κ) (event : StateTransition) (newState : State) (before : List Result)
    (answers : CallbackResults) : Participant κ where
  running := p.running.changeState event newState (p.answersOf answer newState before answers)
  registry :=
    if p.executes answer newState before answers then (p.entry answer newState answers.internalEntry).1
    else (p.request answer newState).1

def step (p : Participant κ) : ParticipantAction → Option (Participant κ)
  | .event event => (p.running.step (.event event)).map (⟨·,p.registry⟩)
  | .dequeue => (p.running.step .dequeue).map (⟨·,p.registry⟩)
  | .finish => (p.running.step .finish).map (⟨·,p.registry⟩)
  | .performShutdown => (p.running.step .performShutdown).map (⟨·,p.registry⟩)
  | .perform before answers =>
    match p.running.worker with
    | .performing event =>
      match event.newState p.running.machine.state with
      | some newState => some (p.changeState answer event newState before answers)
      | none => some {p with running := p.running.ignoreEvent}
    | _ => none

/-- If the transition is executed, it neither leads into `FS_IDLE` past a missing `deinitializing()`, nor
initializes again what failed, nor starts components whose failed `ready()` was overruled. -/
def Kept (p : Participant κ) (event : StateTransition) (newState : State) (before : List Result)
    (answers : CallbackResults) : Prop :=
  p.executes answer newState before answers = true →
    (event = .stStop ∧ p.running.machine.state = .fsInitializing ∨ event = .stErrorFixed →
      p.registry.initOutcome ≠ some .errNoError) ∧
    (event = .stInitialize → ∀ result ∈ p.registry.initOutcome, result = .errNoError) ∧
    (event = .stStart → p.running.machine.considerRequestResult = false → p.registry.readyOutcome = some .errNoError)

instance (p : Participant κ) (event : StateTransition) (newState : State) (before : List Result)
    (answers : CallbackResults) : Decidable (p.Kept answer event newState before answers) := by
  unfold Kept
  infer_instance

/-- The transition the worker is about to perform. -/
def target (p : Participant κ) : Option (StateTransition × State) :=
  match p.running.worker with
  | .performing event => (event.newState p.running.machine.state).map (event,·)
  | _ => none

def KeepsLifecycle (p : Participant κ) : ParticipantAction → Prop
  | .perform before answers => ∀ target ∈ p.target, p.Kept answer target.1 target.2 before answers
  | _ => True

instance (p : Participant κ) (action : ParticipantAction) : Decidable (p.KeepsLifecycle answer action) := by
  cases action <;> unfold KeepsLifecycle <;> infer_instance

end Participant

section Invariant

variable {answer} {component : κ} {p q : Participant κ} {action : ParticipantAction}
variable {newState : State} {answers : CallbackResults}

theorem request_cases (newState : State) : p.request answer newState = (p.registry,.errNoError) ∨
    newState = .fsReady ∧ p.running.machine.state = .fsInitializing ∧
      p.request answer newState = p.registry.ready answer := by
  unfold Participant.request
  split
  · exact .inl rfl
  · unfold ComponentRegistry.processRequest
    split
    · rename_i hboth
      exact .inr ⟨hboth.1,hboth.2,rfl⟩
    · exact .inl rfl

theorem request_of_ne (newState : State) (h : newState ≠ .fsReady) :
    p.request answer newState = (p.registry,.errNoError) :=
  (request_cases newState).resolve_right fun hready => h hready.1

theorem request_initOutcome (newState : State) :
    (p.request answer newState).1.initOutcome = p.registry.initOutcome := by
  rcases request_cases (p := p) newState with hsame | ⟨-,-,hready⟩
  · rw [hsame]
  · rw [hready]
    rfl

theorem request_ready (before : List Result) (answers : CallbackResults)
    (hstate : p.running.machine.state = .fsInitializing) (hdone : p.running.machine.initialStateChangeDone = true)
    (hconsider : p.running.machine.considerRequestResult = true)
    (hexecutes : p.executes answer .fsReady before answers = true) :
    (p.request answer .fsReady).1.readyOutcome = some .errNoError := by
  obtain ⟨hignore,hgranted⟩ := Machine.executes_iff.mp hexecutes
  have hready : p.request answer .fsReady = p.registry.ready answer := by
    simp [Participant.request,ComponentRegistry.processRequest,hignore,hdone,hstate,hasRequestCallback]
  have hrequests := hgranted.resolve_right (by simp [hconsider])
  rw [isOk_iff,notifyListener_eq_ok_iff] at hrequests
  have hok : (p.request answer .fsReady).2 = .errNoError := by
    apply hrequests
    simp [Machine.requests,hdone,hasRequestCallback,Participant.answersOf]
  rw [hready] at hok ⊢
  exact congrArg some hok

variable [DecidableEq κ]

structure LifecycleInv (component : κ) (p : Participant κ) : Prop where
  keeps : p.registry.Keeps component
  done : p.running.machine.initialStateChangeDone = true
  idle : p.running.machine.state = .fsIdle ∨ p.running.machine.state = .fsStartup →
    p.registry.initOutcome ≠ some .errNoError
  ready : p.running.machine.state = .fsReady → p.running.machine.considerRequestResult = true →
    p.registry.readyOutcome = some .errNoError
  reached : p.running.machine.lastStateReached = .fsShutdown → p.running.machine.state = .fsShutdown

theorem request_keeps (h : p.registry.Keeps component) (newState : State) :
    (p.request answer newState).1.Keeps component := by
  rcases request_cases (p := p) newState with hsame | ⟨-,-,hready⟩
  · rw [hsame]
    exact h
  · rw [hready]
    exact h.ready

/-- What the invariant says of the components once a state is entered. -/
def EntryKept (component : κ) (newState : State) (consider : Bool) (registry : ComponentRegistry κ) : Prop :=
  registry.Keeps component ∧
  (newState = .fsIdle ∨ newState = .fsStartup → registry.initOutcome ≠ some .errNoError) ∧
  (newState = .fsReady → consider = true → registry.readyOutcome = some .errNoError)

theorem idleEntry_kept {registry : ComponentRegistry κ} (hkeeps : registry.Keeps component)
    (oldState : State) (consider : Bool)
    (hidle : oldState ≠ .fsReady → oldState ≠ .fsRunning → registry.initOutcome ≠ some .errNoError) :
    EntryKept component .fsIdle consider (registry.processIdleEntry answer oldState) := by
  unfold ComponentRegistry.processIdleEntry
  by_cases hready : oldState = .fsReady
  · simp only [hready,if_true,reduceCtorEq,if_false]
    exact ⟨hkeeps.deinitializing,fun _ => nofun,nofun⟩
  · by_cases hrunning : oldState = .fsRunning
    · simp only [hrunning,if_true,reduceCtorEq,if_false]
      exact ⟨hkeeps.stop.deinitializing,fun _ => nofun,nofun⟩
    · simp only [hready,hrunning,if_false]
      exact ⟨hkeeps,fun _ => hidle hready hrunning,nofun⟩

private theorem errorEntry_kept {registry : ComponentRegistry κ} (hkeeps : registry.Keeps component)
    (oldState : State) (consider : Bool) :
    EntryKept component .fsError consider (registry.processErrorEntry answer oldState) := by
  unfold ComponentRegistry.processErrorEntry
  refine ⟨?_,nofun,nofun⟩
  by_cases hrunning : oldState = .fsRunning
  · simp only [hrunning,if_true,or_true]
    exact hkeeps.stop.deinitializing
  · simp only [hrunning,if_false,or_false]
    split
    · exact hkeeps.deinitializing
    · exact hkeeps

section
variable (h : LifecycleInv component p)
include h

theorem entry_kept {event : StateTransition} {newState : State} {before : List Result} {answers : CallbackResults}
    (hvalid : event.newState p.running.machine.state = some newState)
    (hkept : p.Kept answer event newState before answers)
    (hexecutes : p.executes answer newState before answers = true) :
    EntryKept component newState p.running.machine.considerRequestResult
      (p.entry answer newState answers.internalEntry).1 := by
  obtain ⟨hidle,hinit,hstart⟩ := hkept hexecutes
  unfold Participant.entry
  by_cases hready : newState = .fsReady
  · subst hready
    have hstate : p.running.machine.state = .fsInitializing := by
      revert hvalid
      cases event <;> cases p.running.machine.state <;> simp [StateTransition.newState]
    exact ⟨request_keeps h.keeps _,by simp,fun _ hconsider =>
      request_ready before answers hstate h.done hconsider hexecutes⟩
  rw [request_of_ne newState hready]
  cases event <;>
    simp only [StateTransition.newState,ite_none_right_eq_some,some.injEq] at hvalid <;>
    obtain ⟨hstate,rfl⟩ := hvalid
  case stStartupDone => exact idleEntry_kept h.keeps _ _ fun _ _ => h.idle (.inr hstate)
  case stStop =>
    apply idleEntry_kept h.keeps
    intro hnotready hnotrunning
    exact hidle (.inl ⟨rfl,hstate.resolve_right fun hother => hother.elim hnotready hnotrunning⟩)
  case stErrorFixed => exact idleEntry_kept h.keeps _ _ fun _ _ => hidle (.inr rfl)
  case stError => exact errorEntry_kept h.keeps _ _
  case stRestart => exact ⟨h.keeps,fun _ => h.idle (.inl hstate),fun hother => absurd hother (by decide)⟩
  case stShutdown => exact ⟨h.keeps,by simp,fun hother => absurd hother (by decide)⟩
  case stInitDone => exact absurd rfl hready
  case stInitialize =>
    refine ⟨h.keeps.initializing ?_,by simp,fun hother => absurd hother (by decide)⟩
    cases houtcome : p.registry.initOutcome with
    | none => rfl
    | some result =>
      refine absurd ?_ (h.idle (.inl hstate))
      rw [houtcome,hinit rfl result houtcome]
  case stStart =>
    refine ⟨h.keeps.start ?_,by simp,fun hother => absurd hother (by decide)⟩
    cases hconsider : p.running.machine.considerRequestResult with
    | true => exact h.ready hstate hconsider
    | false => exact hstart rfl hconsider

theorem LifecycleInv.of_frame (hregistry : q.registry = p.registry)
    (hdone : q.running.machine.initialStateChangeDone = p.running.machine.initialStateChangeDone)
    (hstate : q.running.machine.state = p.running.machine.state)
    (hconsider : q.running.machine.considerRequestResult = true →
      p.running.machine.considerRequestResult = true ∨ p.running.machine.state = .fsShutdown)
    (hreached : q.running.machine.lastStateReached = p.running.machine.lastStateReached ∨
      q.running.machine.lastStateReached = p.running.machine.state) : LifecycleInv component q where
  keeps := by
    rw [hregistry]
    exact h.keeps
  done := hdone.trans h.done
  idle := by
    rw [hstate,hregistry]
    exact h.idle
  ready := by
    rw [hstate,hregistry]
    intro hready hconsiders
    rcases hconsider hconsiders with hconsiders | hshutdown
    · exact h.ready hready hconsiders
    · simp [hready] at hshutdown
  reached := by
    rw [hstate]
    rcases hreached with hsame | hstate
    · rw [hsame]
      exact h.reached
    · rw [hstate]
      exact id

theorem lifecycleInv_changed {event : StateTransition}
    {newState : State} {before : List Result} {answers : CallbackResults}
    (hvalid : event.newState p.running.machine.state = some newState)
    (hkept : p.Kept answer event newState before answers) :
    LifecycleInv component (p.changeState answer event newState before answers) := by
  have hnotshutdown : p.running.machine.lastStateReached ≠ .fsShutdown := by
    intro hreached
    rw [h.reached hreached,StateTransition.newState_shutdown] at hvalid
    cases hvalid
  cases hexecutes : p.executes answer newState before answers with
  | true =>
    have hstate : (p.changeState answer event newState before answers).running.machine.state = newState :=
      if_pos hexecutes
    have hregistry : (p.changeState answer event newState before answers).registry =
        (p.entry answer newState answers.internalEntry).1 := if_pos hexecutes
    obtain ⟨hkeeps,hidle,hready⟩ := entry_kept h hvalid hkept hexecutes
    refine ⟨hregistry ▸ hkeeps,h.done,?_,?_,fun hreached => absurd hreached hnotshutdown⟩
    · rw [hstate,hregistry]
      exact hidle
    · rw [hstate,hregistry]
      exact hready
  | false =>
    have hnot : ¬p.executes answer newState before answers = true := by simp [hexecutes]
    have hstate : (p.changeState answer event newState before answers).running.machine.state =
        p.running.machine.state := if_neg hnot
    have hregistry : (p.changeState answer event newState before answers).registry =
        (p.request answer newState).1 := if_neg hnot
    refine ⟨hregistry ▸ request_keeps h.keeps newState,h.done,?_,?_,
      fun hreached => absurd hreached hnotshutdown⟩
    · rw [hstate,hregistry,request_initOutcome]
      exact h.idle
    · rw [hstate,hregistry]
      intro hready
      rcases request_cases (p := p) newState with hsame | ⟨-,hinit,-⟩
      · rw [hsame]
        exact h.ready hready
      · simp [hready] at hinit

theorem lifecycleInv_step (hkept : p.KeepsLifecycle answer action)
    (hstep : p.step answer action = some q) : LifecycleInv component q := by
  cases action with
  | event event =>
    obtain rfl := by simpa [Participant.step,RunningMachine.step] using hstep.symm
    exact h.of_frame rfl rfl rfl .inl (.inl rfl)
  | dequeue =>
    obtain ⟨t,ht,rfl⟩ := map_eq_some_iff.mp hstep
    rcases step_cases ht with ⟨_,hevent,-⟩ | hcase | ⟨hshutdown,-⟩
    · cases hevent
    · cases hcase
      exact h.of_frame rfl rfl rfl .inl (.inl rfl)
    · cases hshutdown
  | perform before answers =>
    simp only [Participant.step] at hstep
    split at hstep
    · rename_i event hworker
      split at hstep
      · rename_i newState hvalid
        cases hstep
        exact lifecycleInv_changed h hvalid (hkept (event,newState) (by simp [Participant.target,hworker,hvalid]))
      · cases hstep
        exact h.of_frame rfl rfl rfl .inl (.inl rfl)
    · cases hstep
  | finish =>
    obtain ⟨t,ht,rfl⟩ := map_eq_some_iff.mp hstep
    rcases step_cases ht with ⟨_,hevent,-⟩ | hcase | ⟨hshutdown,-⟩
    · cases hevent
    · cases hcase
      unfold RunningMachine.finishHandler
      split <;> exact h.of_frame rfl rfl rfl .inl (.inr rfl)
    · cases hshutdown
  | performShutdown =>
    obtain ⟨t,ht,rfl⟩ := map_eq_some_iff.mp hstep
    obtain ⟨-,hstate,-,hdone,-,hreached⟩ := performShutdown_frame ht
    refine h.of_frame rfl hdone hstate (fun hconsider => ?_) (.inl hreached)
    exact (performShutdown_considers ht hconsider).imp id h.reached

end

private theorem lifecycleInv_fireup {components : List κ} (honce : components.count component = 1) :
    LifecycleInv component (Participant.fireup answers components) := by
  have hstate : (Participant.fireup answers components).running.machine.state = .fsStartup := by
    simp [Participant.fireup,RunningMachine.fireup,Machine.fireupStateMachine,Machine.setState_state,Machine.new]
  refine ⟨.new honce,rfl,fun _ => nofun,?_,?_⟩
  · rw [hstate]
    exact nofun
  · intro hreached
    exact absurd (hstate.symm.trans hreached) nofun

/-- A component registered once gets `initializing()` only when it is not initialized and `start()` only behind a
successful `ready()`, and is not initialized in `FS_IDLE`, unless `FS_IDLE` is entered past a missing
`deinitializing()`. -/
theorem component_lifecycle_alternates (answer : Answer κ) {answers : CallbackResults}
    {components : List κ} (component : κ) (honce : components.count component = 1)
    (hreach : Reaches (Participant.step answer) (Participant.KeepsLifecycle answer)
      (Participant.fireup answers components) p) : Alternates component p.registry.history ∧
      (p.running.machine.state = .fsIdle → initialized component p.registry.history = false) := by
  have hinv : LifecycleInv component p :=
    hreach.invariant (lifecycleInv_fireup honce) fun _ _ _ h ha hs => lifecycleInv_step h ha hs
  exact ⟨hinv.keeps.alternates,fun hidle => hinv.keeps.notInitialized (hinv.idle (.inl hidle))⟩

end Invariant

section Runs

def handled (event : StateTransition) : List ParticipantAction :=
  [.event event,.dequeue,.perform [] quietAnswers,.finish]

/-- All calls succeed. -/
def willing : Answer String := fun _ _ _ => .errNoError

/-- Every `ready()` fails. -/
def unready : Answer String := fun _ _ call => if call = .ready then .errFailed else .errNoError

/-- Two components over a whole cycle and into the next one. -/
theorem component_lifecycle_alternates_cycle : ∃ p,
    runAllowed (Participant.step willing) (Participant.KeepsLifecycle willing)
      (Participant.fireup quietAnswers ["clock","scheduler"])
      ([.stStartupDone,.stInitialize,.stInitDone,.stStart,.stStop,.stInitialize,.stInitDone,
        .stStop].flatMap handled) = some p ∧ p.running.machine.state = .fsIdle ∧ Alternates "clock" p.registry.history ∧
    initialized "clock" p.registry.history = false := by
  let run := runAllowed (Participant.step willing) (Participant.KeepsLifecycle willing)
    (Participant.fireup quietAnswers ["clock","scheduler"])
    ([.stStartupDone,.stInitialize,.stInitDone,.stStart,.stStop,.stInitialize,.stInitDone,.stStop].flatMap handled)
  have hfacts : run.any (fun p => p.running.machine.state == .fsIdle) = true := by decide +kernel
  obtain ⟨p,hp,hidle⟩ := (any_eq_true _ _).mp hfacts
  rw [beq_iff_eq] at hidle
  obtain ⟨halternates,hnot⟩ := component_lifecycle_alternates willing "clock" (by decide) (reaches_of_runAllowed hp)
  exact ⟨p,hp,hidle,halternates,hnot hidle⟩

/-- Stopped in `FS_INITIALIZING` the component stays initialized in `FS_IDLE` and is initialized again, as is one
registered twice; a shutdown starts components that are not ready. -/
theorem stop_skips_deinitializing :
    (∃ p, Reaches (Participant.step willing) anyAction (Participant.fireup quietAnswers ["clock"]) p ∧
      p.running.machine.state = .fsIdle ∧ initialized "clock" p.registry.history = true) ∧
    (∃ p, Reaches (Participant.step willing) anyAction (Participant.fireup quietAnswers ["clock"]) p ∧
      ¬Alternates "clock" p.registry.history) ∧
    (∃ p, Reaches (Participant.step willing) anyAction (Participant.fireup quietAnswers ["rpc","rpc"]) p ∧
      ¬Alternates "rpc" p.registry.history) ∧
    ∃ p, Reaches (Participant.step unready) anyAction (Participant.fireup quietAnswers ["clock"]) p ∧
      ¬Alternates "clock" p.registry.history := by
  refine ⟨?_,?_,?_,?_⟩
  · apply exists_of_runActions ([.stStartupDone,.stInitialize,.stStop].flatMap handled)
    decide +kernel
  · apply exists_of_runActions ([.stStartupDone,.stInitialize,.stStop,.stInitialize].flatMap handled)
    decide +kernel
  · apply exists_of_runActions ([.stStartupDone,.stInitialize].flatMap handled)
    decide +kernel
  · apply exists_of_runActions ([.stStartupDone,.stInitialize].flatMap handled ++ List.replicate 4 .performShutdown ++
        [.stInitDone,.stStart].flatMap handled)
    decide +kernel

end Runs
end FepParticipant.Components
