import FepParticipant.TransmissionAdapter.AdapterSystem

/-! The stages of a transition: what is left of it tells whether the adapter is disabled and registration is
allowed. -/
namespace FepParticipant.TransmissionAdapter
open StateMachine List

/-- The states in which the signals are live. -/
def isLive (state : State) : Bool := state == .fsReady || state == .fsRunning

/-- The steps that disable the receivers one after the other. -/
def disableEach (handles : List Nat) : List Instruction :=
  handles.flatMap fun handle => [.disableReceiver handle,.flushQueue handle]

inductive Stage : State → Bool → Bool → List Instruction → Prop
  | resting {state : State} : Stage state (!isLive state) (!isLive state) []
  | changing {state newState : State} : isLive newState = isLive state →
      Stage state (!isLive state) (!isLive state) [.changeState newState]
  | entering {state : State} : isLive state = false →
      Stage state true true [.changeState .fsReady,.enable,.disallowSignalRegistration]
  | enabling : Stage .fsReady true true [.enable,.disallowSignalRegistration]
  | creating : Stage .fsReady false true (AdapterSystem.enableSteps ++ [.disallowSignalRegistration])
  | created : Stage .fsReady false true [.enableReceivers,.enableTransmitters,.disallowSignalRegistration]
  | enablingReceivers (handles : List Nat) : Stage .fsReady false true
      (handles.map Instruction.enableReceiver ++ [.enableTransmitters,.disallowSignalRegistration])
  | enablingTransmitters (handles : List Nat) : Stage .fsReady false true
      (handles.map Instruction.enableTransmitter ++ [.disallowSignalRegistration])
  | leaving {state newState : State} : isLive state = true → isLive newState = false →
      Stage state false false [.allowSignalRegistration,.changeState newState,.disable]
  | left {state newState : State} : isLive newState = false → Stage state false true [.changeState newState,.disable]
  | disabling {state : State} : isLive state = false → Stage state false true [.disable]
  | shuttingDown {state : State} : isLive state = false → Stage state true true AdapterSystem.disableSteps
  | joining {state : State} : isLive state = false → Stage state true true
      [.joinWorkers,.stopJobQueue,.clearJobQueue,.disableReceivers,.disableTransmitters]
  | stopping {state : State} : isLive state = false →
      Stage state true true [.stopJobQueue,.clearJobQueue,.disableReceivers,.disableTransmitters]
  | clearing {state : State} : isLive state = false →
      Stage state true true [.clearJobQueue,.disableReceivers,.disableTransmitters]
  | stopped {state : State} : isLive state = false → Stage state true true [.disableReceivers,.disableTransmitters]
  | disablingReceivers {state : State} (handles : List Nat) : isLive state = false →
      Stage state true true (disableEach handles ++ [.disableTransmitters])
  | flushing {state : State} (handle : Nat) (handles : List Nat) : isLive state = false →
      Stage state true true (.flushQueue handle::disableEach handles ++ [.disableTransmitters])
  | disablingTransmitters {state : State} (handles : List Nat) : isLive state = false →
      Stage state true true (handles.map Instruction.disableTransmitter)

def Instruction.FitsFlag (bGlobalDisabled : Bool) : Instruction → Prop
  | .enable | .disableReceivers | .disableReceiver _ | .flushQueue _ | .disableTransmitters
  | .disableTransmitter _ => bGlobalDisabled = true
  | .disable | .createQueueManager | .enableReceivers | .enableReceiver _ | .enableTransmitters
  | .enableTransmitter _ => bGlobalDisabled = false
  | _ => True

/-- The steps behind a step. -/
def Instruction.FitsProgram (program : List Instruction) : Instruction → Prop
  | .stopJobQueue => .clearJobQueue ∈ program
  | .disableReceiver handle => .flushQueue handle ∈ program
  | _ => True

namespace Stage
variable {state newState : State} {bGlobalDisabled bAllowRegistration : Bool} {program : List Instruction}
variable {instruction : Instruction}

theorem of_resting (h : Stage state bGlobalDisabled bAllowRegistration []) :
    bGlobalDisabled = !isLive state ∧ bAllowRegistration = !isLive state := by
  generalize hprogram : ([] : List Instruction) = program at h
  cases h with
  | resting => exact ⟨rfl,rfl⟩
  | disablingTransmitters handles hstate => rw [hstate]; exact ⟨rfl,rfl⟩
  | enablingReceivers handles => cases handles <;> cases hprogram
  | enablingTransmitters handles => cases handles <;> cases hprogram
  | disablingReceivers handles => cases handles <;> cases hprogram
  | _ => cases hprogram

def changeProgram (oldState newState : State) : List Instruction :=
  processExit oldState newState ++ .changeState newState::processEntry oldState newState

private theorem of_event {event : StateTransition} (h : event.newState state = some newState) :
    Stage state (!isLive state) (!isLive state) (changeProgram state newState) := by
  cases event <;> cases state <;> cases h
  all_goals first
    | exact .changing rfl
    | exact .entering rfl
    | exact .leaving rfl rfl

private theorem flatMap_notifications (phase : Phase) (results : List Result) (oldState newState : State)
    (hphase : processPhase oldState newState phase = []) :
    (notifications phase results).flatMap (fun call => processPhase oldState newState call.phase) = [] := by
  rw [notifications,flatMap_map,flatMap_eq_nil_iff]
  exact fun _ _ => hphase

theorem of_setState {event : StateTransition} (h : event.newState state = some newState)
    (considerRequestResult ignoreEvents : Bool) (answers : CallbackResults) :
    let machine : Machine := ⟨state,[],ignoreEvents,considerRequestResult,true,state⟩
    Stage state (!isLive state) (!isLive state)
      ((machine.setState newState answers).calls.flatMap fun call => processPhase state newState call.phase) := by
  intro machine
  cases hexecutes : machine.executes newState answers with
  | true =>
    have hcalls : (machine.setState newState answers).calls.flatMap
        (fun call => processPhase state newState call.phase) = changeProgram state newState := by
      have hnone (phase : Phase) (results : List Result) (hphase : processPhase state newState phase = []) :=
        flatMap_notifications phase results state newState hphase
      have hcleanUp : (if callsCleanUp machine.state newState = true then
          notifications .cleanUp answers.cleanUp ++ [⟨.internalCleanUp,answers.internalCleanUp⟩] else []).flatMap
            (fun call => processPhase state newState call.phase) = [] := by
        split
        · rw [flatMap_append,hnone .cleanUp _ rfl]
          rfl
        · rfl
      rw [Machine.setState_calls_of_executes hexecutes,Machine.changeCalls,if_pos rfl]
      simp only [flatMap_append,hcleanUp,hnone .request _ rfl,hnone .exit _ rfl,hnone .entry _ rfl,
        flatMap_cons,flatMap_nil,append_nil,nil_append]
      rw [append_assoc]
      rfl
    rw [hcalls]
    exact of_event h
  | false =>
    have hcalls : (machine.setState newState answers).calls.flatMap
        (fun call => processPhase state newState call.phase) = [] := by
      rw [flatMap_eq_nil_iff]
      intro call hcall
      rw [Machine.setState_calls_of_not_executes hexecutes call hcall]
      rfl
    rw [hcalls]
    exact .resting

theorem execute {system after : AdapterSystem} {instruction : Instruction} {program : List Instruction}
    (h : Stage system.state system.bGlobalDisabled system.bAllowRegistration (instruction::program))
    (hstep : AdapterSystem.execute {system with program := program} instruction = some after) :
    Stage after.state after.bGlobalDisabled after.bAllowRegistration after.program := by
  obtain ⟨state,_,bAllowRegistration,bGlobalDisabled,_,vecDataReceiver,vecDataTransmitter,_⟩ := system
  generalize hprogram : instruction::program = steps at h
  dsimp only at h
  cases h with
  | resting => cases hprogram
  | changing hlive =>
    cases hprogram
    cases hstep
    rw [← hlive]
    exact .resting
  | entering hstate =>
    cases hprogram
    cases hstep
    exact .enabling
  | enabling =>
    cases hprogram
    cases hstep
    exact .creating
  | creating =>
    cases hprogram
    cases hstep
    exact .created
  | created =>
    cases hprogram
    cases hstep
    have hstage := Stage.enablingReceivers (vecDataReceiver.map DataReceiver.handle)
    rwa [map_map] at hstage
  | enablingReceivers handles =>
    cases handles with
    | nil =>
      cases hprogram
      cases hstep
      have hstage := Stage.enablingTransmitters (vecDataTransmitter.map DataTransmitter.handle)
      rwa [map_map] at hstage
    | cons handle handles =>
      cases hprogram
      cases hstep
      exact .enablingReceivers handles
  | enablingTransmitters handles =>
    cases handles with
    | nil =>
      cases hprogram
      cases hstep
      exact .resting
    | cons handle handles =>
      cases hprogram
      cases hstep
      exact .enablingTransmitters handles
  | leaving hstate hnew =>
    cases hprogram
    cases hstep
    exact .left hnew
  | left hnew =>
    cases hprogram
    cases hstep
    exact .disabling hnew
  | disabling hstate =>
    cases hprogram
    cases hstep
    exact .shuttingDown hstate
  | shuttingDown hstate =>
    cases hprogram
    cases hstep
    exact .joining hstate
  | joining hstate =>
    cases hprogram
    rw [AdapterSystem.execute] at hstep
    split at hstep
    · cases hstep
      exact .stopping hstate
    · cases hstep
  | stopping hstate =>
    cases hprogram
    cases hstep
    exact .clearing hstate
  | clearing hstate =>
    cases hprogram
    cases hstep
    exact .stopped hstate
  | stopped hstate =>
    cases hprogram
    cases hstep
    have hstage := Stage.disablingReceivers (vecDataReceiver.map DataReceiver.handle) hstate
    rwa [disableEach,flatMap_map] at hstage
  | disablingReceivers handles hstate =>
    cases handles with
    | nil =>
      cases hprogram
      cases hstep
      have hstage := Stage.disablingTransmitters (vecDataTransmitter.map DataTransmitter.handle) hstate
      rw [map_map] at hstage
      rwa [append_nil]
    | cons handle handles =>
      cases hprogram
      rw [AdapterSystem.execute] at hstep
      split at hstep
      · cases hstep
      · cases hstep
        exact .flushing handle handles hstate
  | flushing handle handles hstate =>
    cases hprogram
    rw [AdapterSystem.execute] at hstep
    split at hstep
    · cases hstep
    · cases hstep
      exact .disablingReceivers handles hstate
  | disablingTransmitters handles hstate =>
    cases handles with
    | nil => cases hprogram
    | cons handle handles =>
      cases hprogram
      cases hstep
      exact .disablingTransmitters handles hstate

section
variable (h : Stage state bGlobalDisabled bAllowRegistration (instruction::program))
include h

theorem fitsFlag : instruction.FitsFlag bGlobalDisabled := by
  generalize hprogram : instruction::program = steps at h
  cases h with
  | resting => cases hprogram
  | enablingReceivers handles => cases handles <;> cases hprogram <;> exact rfl
  | enablingTransmitters handles => cases handles <;> cases hprogram <;> first | exact rfl | exact trivial
  | disablingReceivers handles => cases handles <;> cases hprogram <;> exact rfl
  | disablingTransmitters handles =>
    cases handles <;> cases hprogram
    exact rfl
  | _ => cases hprogram; first | exact rfl | exact trivial

theorem fitsProgram : instruction.FitsProgram program := by
  generalize hprogram : instruction::program = steps at h
  cases h with
  | resting => cases hprogram
  | stopping => cases hprogram; exact mem_cons_self
  | enablingReceivers handles => cases handles <;> cases hprogram <;> exact trivial
  | enablingTransmitters handles => cases handles <;> cases hprogram <;> exact trivial
  | disablingReceivers handles =>
    cases handles with
    | nil => cases hprogram; exact trivial
    | cons handle handles => cases hprogram; exact mem_cons_self
  | disablingTransmitters handles =>
    cases handles <;> cases hprogram
    exact trivial
  | _ => cases hprogram; exact trivial

end

end Stage
end FepParticipant.TransmissionAdapter
