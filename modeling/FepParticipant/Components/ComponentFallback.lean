import FepParticipant.Components.ComponentRegistry

/-! A lifecycle step of the registry, with the fallback of the components that succeeded when one fails.
The calls are remembered, the latest first, and tell the state of every component. -/
namespace FepParticipant.Components.ComponentFallback
open List

/-- The functions of `IComponent` that the registry calls. -/
inductive ComponentFunc where
  | createComponent
  | initializing
  | ready
  | start
  | stop
  | deinitializing
  | destroyComponent

inductive LifecycleState where
  | uncreated
  | created
  | initialized
  | ready
  | running
  deriving DecidableEq

def ComponentFunc.leadsTo : ComponentFunc → LifecycleState
  | createComponent | deinitializing => .created
  | initializing => .initialized
  | ready | stop => .ready
  | start => .running
  | destroyComponent => .uncreated

structure FuncCall (κ : Type) where
  component : κ
  func : ComponentFunc
  result : Result

structure RegisteredComponent (κ : Type) where
  component : κ
  raising : Result
  fallingBack : Result

/-- The steps of the registry that fall back. -/
inductive LifecycleStep where
  | create
  | initializing
  | ready
  | start

section Steps

variable {κ : Type} (step : LifecycleStep) (registered : RegisteredComponent κ)

def LifecycleStep.raiseFunc : LifecycleStep → ComponentFunc
  | create => .createComponent
  | initializing => .initializing
  | ready => .ready
  | start => .start

def LifecycleStep.fallbackFunc : LifecycleStep → ComponentFunc
  | create => .destroyComponent
  | initializing | ready => .deinitializing
  | start => .stop

def raised : FuncCall κ := ⟨registered.component,step.raiseFunc,registered.raising⟩

def fallenBack : FuncCall κ := ⟨registered.component,step.fallbackFunc,registered.fallingBack⟩

/-- `ComponentRegistry::create`, `initializing`, `ready` and `start`. -/
def LifecycleStep.run (components : List (RegisteredComponent κ)) (calls : List (FuncCall κ)) :
    List (FuncCall κ) × Result :=
  raiseWithFallback (fun registered calls => (raised step registered::calls,registered.raising))
    (fun registered calls => (fallenBack step registered::calls,registered.fallingBack)) components [] calls

end Steps

section States

variable {κ : Type} [DecidableEq κ] (component : κ)

def stateOf : List (FuncCall κ) → LifecycleState
  | [] => .uncreated
  | call::calls => if call.component = component ∧ isOk call.result then call.func.leadsTo else stateOf calls

/-- The components that succeeded are called back in reverse order, and no other one, and every component is
in the state it was in. -/
structure RolledBack (step : LifecycleStep) (front : List (RegisteredComponent κ)) (failing : RegisteredComponent κ)
    (calls : List (FuncCall κ)) (outcome : List (FuncCall κ) × Result) : Prop where
  called : outcome.1.reverse = calls.reverse ++ front.map (raised step) ++ raised step failing ::
    front.reverse.map (fallenBack step)
  result : outcome.2 = failing.raising
  states : ∀ component, stateOf component outcome.1 = stateOf component calls

/-- Each component was in the state its fallback leads to, or, if that fails, in the one the step leads to. -/
def RestoredBy (step : LifecycleStep) (front : List (RegisteredComponent κ)) (calls : List (FuncCall κ)) : Prop :=
  ∀ registered ∈ front, stateOf registered.component calls =
    if ∃ other ∈ front, other.component = registered.component ∧ isOk other.fallingBack = true
    then step.fallbackFunc.leadsTo else step.raiseFunc.leadsTo

end States

section Generic

variable {κ σ : Type} {raiseFunc fallbackFunc : κ → σ → σ × Result} {surroundings : σ}

theorem raiseWithFallback_front {front behind succeeded : List κ}
    (hfront : ∀ component ∈ front, ∀ surroundings, (raiseFunc component surroundings).2 = .errNoError) :
    raiseWithFallback raiseFunc fallbackFunc (front ++ behind) succeeded surroundings =
      raiseWithFallback raiseFunc fallbackFunc behind (front.reverse ++ succeeded)
        (fallBack raiseFunc front surroundings) := by
  induction front generalizing succeeded surroundings with
  | nil => rfl
  | cons component front ih =>
    rw [forall_mem_cons] at hfront
    have hok : isOk (raiseFunc component surroundings).2 = true := (isOk_iff _).mpr (hfront.1 surroundings)
    rw [cons_append,raiseWithFallback]
    dsimp only
    rw [if_pos hok,ih hfront.2,reverse_cons,append_assoc]
    rfl

end Generic

section Calls

variable {κ : Type} {step : LifecycleStep} {front behind : List (RegisteredComponent κ)}
  {failing : RegisteredComponent κ}
  {calls : List (FuncCall κ)}

private theorem fallBack_calls (func : RegisteredComponent κ → FuncCall κ) (result : RegisteredComponent κ → Result)
    (components : List (RegisteredComponent κ)) :
    fallBack (fun registered calls => (func registered::calls,result registered)) components calls =
      (components.map func).reverse ++ calls := by
  induction components generalizing calls with
  | nil => rfl
  | cons registered components ih =>
    rw [fallBack,ih,map_cons,reverse_cons,append_assoc]
    rfl

theorem run_failing (hfront : ∀ registered ∈ front, registered.raising = .errNoError)
    (hfailing : failing.raising ≠ .errNoError) :
    step.run (front ++ failing::behind) calls =
      ((front.reverse.map (fallenBack step)).reverse ++ raised step failing ::
        ((front.map (raised step)).reverse ++ calls),failing.raising) := by
  have hfailed : isOk failing.raising ≠ true := fun hok => hfailing ((isOk_iff _).mp hok)
  rw [LifecycleStep.run,raiseWithFallback_front fun registered hmem _ => hfront registered hmem,raiseWithFallback]
  dsimp only
  rw [if_neg hfailed,append_nil,fallBack_calls,fallBack_calls]

end Calls

section States

variable {κ : Type} [DecidableEq κ] {component : κ} {step : LifecycleStep} {front behind : List (RegisteredComponent κ)}
  {failing : RegisteredComponent κ} {calls newCalls : List (FuncCall κ)}

theorem stateOf_append {func : ComponentFunc} (hfunc : ∀ call ∈ newCalls, call.func = func) :
    stateOf component (newCalls ++ calls) =
      if ∃ call ∈ newCalls, call.component = component ∧ isOk call.result = true then func.leadsTo
      else stateOf component calls := by
  induction newCalls with
  | nil => simp
  | cons call newCalls ih =>
    rw [forall_mem_cons] at hfunc
    rw [cons_append,stateOf,ih hfunc.2,hfunc.1]
    by_cases hcall : call.component = component ∧ isOk call.result = true
    · rw [if_pos hcall,if_pos ⟨call,mem_cons_self,hcall⟩]
    · rw [if_neg hcall]
      have hiff : (∃ c ∈ call::newCalls, c.component = component ∧ isOk c.result = true) ↔
          ∃ c ∈ newCalls, c.component = component ∧ isOk c.result = true := by
        constructor
        · rintro ⟨other,hmem,hother⟩
          rcases mem_cons.mp hmem with rfl | hmem
          · exact absurd hother hcall
          · exact ⟨other,hmem,hother⟩
        · rintro ⟨other,hmem,hother⟩
          exact ⟨other,mem_cons_of_mem _ hmem,hother⟩
      simp only [hiff]

private theorem stateOf_failing (hfailing : failing.raising ≠ .errNoError) :
    stateOf component (raised step failing::calls) = stateOf component calls := by
  rw [stateOf,if_neg fun hcall => hfailing ((isOk_iff _).mp hcall.2)]

theorem stateOf_run (hfront : ∀ registered ∈ front, registered.raising = .errNoError)
    (hfailing : failing.raising ≠ .errNoError) : stateOf component (step.run (front ++ failing::behind) calls).1 =
      if ∃ registered ∈ front, registered.component = component ∧ isOk registered.fallingBack = true
      then step.fallbackFunc.leadsTo
      else if ∃ registered ∈ front, registered.component = component then step.raiseFunc.leadsTo
      else stateOf component calls := by
  have hback : (∃ call ∈ (front.reverse.map (fallenBack step)).reverse,
      call.component = component ∧ isOk call.result = true) ↔
      ∃ registered ∈ front, registered.component = component ∧ isOk registered.fallingBack = true := by
    simp [fallenBack]
  have hraised : (∃ call ∈ (front.map (raised step)).reverse,
      call.component = component ∧ isOk call.result = true) ↔
      ∃ registered ∈ front, registered.component = component := by
    constructor
    · rintro ⟨call,hcall,hcomponent,-⟩
      obtain ⟨registered,hmem,rfl⟩ := mem_map.mp (mem_reverse.mp hcall)
      exact ⟨registered,hmem,hcomponent⟩
    · rintro ⟨registered,hmem,hcomponent⟩
      exact ⟨raised step registered,mem_reverse.mpr (mem_map_of_mem hmem),hcomponent,
        (isOk_iff _).mpr (hfront registered hmem)⟩
  have hbackFunc : ∀ call ∈ (front.reverse.map (fallenBack step)).reverse, call.func = step.fallbackFunc := by
    simp [fallenBack]
  have hraisedFunc : ∀ call ∈ (front.map (raised step)).reverse, call.func = step.raiseFunc := by
    simp [raised]
  rw [run_failing hfront hfailing,stateOf_append hbackFunc,stateOf_failing hfailing,stateOf_append hraisedFunc]
  simp only [hback,hraised]

/-- A step in which a component fails is rolled back exactly if the fallback leads where the components were. -/
theorem step_rolledBack_iff (step : LifecycleStep) (front behind : List (RegisteredComponent κ))
    (failing : RegisteredComponent κ) (calls : List (FuncCall κ))
    (hfront : ∀ registered ∈ front, registered.raising = .errNoError) (hfailing : failing.raising ≠ .errNoError) :
    RolledBack step front failing calls (step.run (front ++ failing::behind) calls) ↔
      RestoredBy step front calls := by
  constructor
  · intro h registered hmem
    have hraised : ∃ other ∈ front, other.component = registered.component := ⟨registered,hmem,rfl⟩
    rw [← h.states,stateOf_run hfront hfailing,if_pos hraised]
  · intro h
    refine ⟨?_,by rw [run_failing hfront hfailing],?_⟩
    · rw [run_failing hfront hfailing]
      simp
    · intro component
      rw [stateOf_run hfront hfailing]
      by_cases hmem : ∃ registered ∈ front, registered.component = component
      · rw [if_pos hmem]
        obtain ⟨registered,hregistered,rfl⟩ := hmem
        exact (h registered hregistered).symm
      · have hnone : ¬∃ registered ∈ front, registered.component = component ∧ isOk registered.fallingBack = true :=
          fun ⟨registered,hregistered,hcomponent,_⟩ => hmem ⟨registered,hregistered,hcomponent⟩
        rw [if_neg hnone,if_neg hmem]

/-- Two components fall back, the latest first; one that was running already fails to stop, and the last one is not
asked. -/
theorem step_rolledBack_start :
    RolledBack .start [⟨"clock",.errNoError,.errNoError⟩,⟨"recorder",.errNoError,.errFailed⟩]
      ⟨"scheduler",.errFailed,.errNoError⟩
      [⟨"recorder",.start,.errNoError⟩,⟨"recorder",.ready,.errNoError⟩,⟨"clock",.ready,.errNoError⟩]
      (LifecycleStep.start.run ([⟨"clock",.errNoError,.errNoError⟩,⟨"recorder",.errNoError,.errFailed⟩] ++
          ⟨"scheduler",.errFailed,.errNoError⟩::[⟨"player",.errNoError,.errNoError⟩])
        [⟨"recorder",.start,.errNoError⟩,⟨"recorder",.ready,.errNoError⟩,⟨"clock",.ready,.errNoError⟩]) :=
  (step_rolledBack_iff .start _ _ _ _ (by simp) (by decide)).mpr (by unfold RestoredBy; decide)

/-- A component that was initialized before `ready` failed is not initialized any more. -/
theorem ready_not_rolledBack : ¬∀ (step : LifecycleStep) (front behind : List (RegisteredComponent String))
      (failing : RegisteredComponent String) (calls : List (FuncCall String)),
      (∀ registered ∈ front, registered.raising = .errNoError) → failing.raising ≠ .errNoError →
      RolledBack step front failing calls (step.run (front ++ failing::behind) calls) := by
  intro h
  have hstates := (h .ready [⟨"clock",.errNoError,.errNoError⟩] [] ⟨"scheduler",.errFailed,.errNoError⟩
    [⟨"clock",.initializing,.errNoError⟩] (by simp) (by decide)).states "clock"
  exact absurd hstates (by decide)

end States
end FepParticipant.Components.ComponentFallback
