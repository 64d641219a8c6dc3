import FepParticipant.Library.CountingSemaphore
import FepParticipant.Library.Reachability
import FepParticipant.StateMachine.SetState

/-! `WaitForState` in any number of threads, which share one notification, while the state machine changes its
state. -/
namespace FepParticipant.StateMachine
open Library CountingSemaphore List Option

/-- The position of a call of `WaitForState`. -/
inductive WaitPosition where
  | called
  | looking
  | looping (waitTime : Int)
  | waiting (waitTime beginTimeWaiting : Int)
  | woken (waitTime beginTimeWaiting : Int)
  | measured (waitTime beginTimeWaiting endTimeWaiting : Int)
  | waitingForever
  | wokenForever
  | returned (result : Result)
  deriving DecidableEq

/-- A call of `WaitForState`; without a wanted state this is `FS_UNKNOWN`. Remembered are the changes completed before
the last one at the start, and where the last completed one had ended since. -/
structure WaitCall where
  eState : Option State
  tmTimeout : Int
  errorIsFailure : Bool
  position : WaitPosition
  since : Nat
  moments : List State

/-- A `SetState` that holds `m_mtxCurrentState`, and the calls it has not made yet. -/
structure Attempt where
  change : StateChange
  remaining : List Call

/-- The machine with the semaphore of its `StateChangeEvent`, the waiting calls, and `reached`, the states that the
completed changes ended in, after `FS_STARTUP` of `Initialize`. -/
structure AwaitedMachine (S : Type) where
  machine : Machine
  attempt : Option Attempt
  event : S
  clock : Int
  calls : List WaitCall
  reached : List State

/-- What any thread may do next. The flags of `PerformShutdown` and `FireupStateMachine` may change at any time. -/
inductive AwaitedAction where
  | setFlags (ignoreEvents considerRequestResult initialStateChangeDone : Bool)
  | performStateTransition (event : StateTransition) (answers : CallbackResults)
  | fireupStateMachine (answers : CallbackResults)
  | callback
  | setStateReached
  | tick (currentMilliseconds : Int)
  | waitForState (eState : Option State) (tmTimeout : Int) (errorIsFailure : Bool)
  | proceed (index : Nat) (notified : Bool)

namespace WaitCall

def reads (call : WaitCall) (current : State) (otherwise : WaitPosition) : WaitPosition :=
  if call.eState = some current then .returned .errNoError else otherwise

/-- The check behind a wait. -/
def readsAfterWait (call : WaitCall) (current : State) (otherwise : WaitPosition) : WaitPosition :=
  call.reads current
    (if call.errorIsFailure = true ∧ current = .fsError then .returned .errFailed else otherwise)

def next (call : WaitCall) (current : State) (clock : Int) : Option WaitPosition :=
  match call.position with
  | .called => some (if call.tmTimeout < -1 ∨ call.eState = none then .returned .errInvalidArg else .looking)
  | .looking => some (call.reads current (if call.tmTimeout = -1 then .waitingForever else .looping call.tmTimeout))
  | .looping waitTime => some (if 0 < waitTime then .waiting waitTime clock else .returned .errTimeout)
  | .waiting waitTime begin => some (.woken waitTime begin)
  | .woken waitTime begin => some (.measured waitTime begin clock)
  | .measured waitTime begin ends => some (call.readsAfterWait current (.looping (waitTime - (ends - begin))))
  | .waitingForever => some .wokenForever
  | .wokenForever => some (call.readsAfterWait current .waitingForever)
  | .returned _ => none

/-- The call is in `wait_for`. -/
def waits (call : WaitCall) : Bool :=
  match call.position with
  | .waiting _ _ | .waitingForever => true
  | _ => false

/-- A call with a timeout is under way and what it has measured leaves time to wait. -/
def TimeLeft (call : WaitCall) (clock : Int) : Prop :=
  match call.position with
  | .called | .looking => True
  | .looping waitTime => 0 < waitTime
  | .waiting waitTime begin | .woken waitTime begin => clock - begin < waitTime
  | .measured waitTime begin ends => ends - begin < waitTime
  | .waitingForever | .wokenForever | .returned _ => False

end WaitCall

namespace AwaitedMachine
variable {S : Type} [CountingSemaphore S]

/-- The machine behind `Initialize`. -/
def new : AwaitedMachine S := ⟨Machine.new,none,CountingSemaphore.fresh,0,[],[.fsStartup]⟩

/-- `SetState` takes the mutex. -/
def setState (s : AwaitedMachine S) (newState : State) (answers : CallbackResults) : AwaitedMachine S :=
  let change := s.machine.setState newState answers
  {s with attempt := some ⟨change,change.calls⟩}

/-- The next callback of `SetState` has returned, or the new state is assigned. -/
def callback (s : AwaitedMachine S) (attempt : Attempt) (call : Call) (remaining : List Call) :
    AwaitedMachine S :=
  { s with
    machine := { s.machine with
      state := if call.phase = .stateChange then attempt.change.newState else s.machine.state }
    attempt := some ⟨attempt.change,remaining⟩ }

/-- The end of `SetState`, whatever became of the attempt. -/
def setStateReached (s : AwaitedMachine S) (attempt : Attempt) : AwaitedMachine S :=
  { s with
    machine := {s.machine with lastStateReached := s.machine.state}
    attempt := none
    event := notify s.event
    reached := if attempt.change.executed then s.reached ++ [attempt.change.newState] else s.reached }

/-- The `wait_for` of the semaphore ends with a token or without one. -/
def waitFor (s : AwaitedMachine S) (call : WaitCall) (notified : Bool) : Option S :=
  if call.waits ∧ notified then tryWait s.event else some s.event

/-- A call takes its next step. -/
def proceed (s : AwaitedMachine S) (index : Nat) (call : WaitCall) (event : S) (position : WaitPosition) :
    AwaitedMachine S :=
  let since := if call.position = .called then s.reached.length - 1 else call.since
  { s with
    event := event
    calls := s.calls.set index
      { call with
        position := position
        since := since
        moments := s.reached.drop since } }

def step (s : AwaitedMachine S) : AwaitedAction → Option (AwaitedMachine S)
  | .setFlags ignoreEvents considerRequestResult initialStateChangeDone =>
    some {s with machine := {s.machine with ignoreEvents, considerRequestResult, initialStateChangeDone}}
  | .performStateTransition event answers =>
    match s.attempt, event.newState s.machine.state with
    | none, some newState => some (s.setState newState answers)
    | _, _ => none
  | .fireupStateMachine answers =>
    match s.attempt with
    | none => some (s.setState .fsStartup answers)
    | some _ => none
  | .callback =>
    match s.attempt with
    | some ⟨change,call::remaining⟩ => some (s.callback ⟨change,call::remaining⟩ call remaining)
    | _ => none
  | .setStateReached =>
    match s.attempt with
    | some ⟨change,[]⟩ => some (s.setStateReached ⟨change,[]⟩)
    | _ => none
  | .tick currentMilliseconds => some {s with clock := currentMilliseconds}
  | .waitForState eState tmTimeout errorIsFailure =>
    some {s with calls := s.calls ++ [⟨eState,tmTimeout,errorIsFailure,.called,0,[]⟩]}
  | .proceed index notified => do
    let call ← s.calls[index]?
    let event ← s.waitFor call notified
    let position ← call.next s.machine.lastStateReached s.clock
    return s.proceed index call event position

/-- What a step can do to the calls, to an attempt, or to neither but for a new call. -/
theorem step_cases {s s' : AwaitedMachine S} {action : AwaitedAction} (h : step s action = some s') :
    (∃ index call event position, s.calls[index]? = some call ∧
      call.next s.machine.lastStateReached s.clock = some position ∧
      s' = s.proceed index call event position) ∨
    (∃ newState answers, s.attempt = none ∧ s' = s.setState newState answers) ∨
    (∃ change call remaining, s.attempt = some ⟨change,call::remaining⟩ ∧
      s' = s.callback ⟨change,call::remaining⟩ call remaining) ∨
    (∃ change, s.attempt = some ⟨change,[]⟩ ∧ s' = s.setStateReached ⟨change,[]⟩) ∨
    (s'.calls = s.calls ∨ ∃ call : WaitCall, call.position = .called ∧ s'.calls = s.calls ++ [call]) ∧
      s'.machine.state = s.machine.state ∧ s'.machine.lastStateReached = s.machine.lastStateReached ∧
      s'.attempt = s.attempt ∧ s'.reached = s.reached := by
  cases action with
  | proceed index notified =>
    obtain ⟨call,hcall,h⟩ := bind_eq_some_iff.mp h
    obtain ⟨event,-,h⟩ := bind_eq_some_iff.mp h
    obtain ⟨position,hnext,h⟩ := bind_eq_some_iff.mp h
    exact .inl ⟨index,call,event,position,hcall,hnext,(some.inj h).symm⟩
  | performStateTransition event answers =>
    simp only [step] at h
    split at h
    · exact .inr (.inl ⟨_,answers,‹_›,(some.inj h).symm⟩)
    · cases h
  | fireupStateMachine answers =>
    simp only [step] at h
    split at h
    · exact .inr (.inl ⟨_,answers,‹_›,(some.inj h).symm⟩)
    · cases h
  | callback =>
    simp only [step] at h
    split at h
    · exact .inr (.inr (.inl ⟨_,_,_,‹_›,(some.inj h).symm⟩))
    · cases h
  | setStateReached =>
    simp only [step] at h
    split at h
    · exact .inr (.inr (.inr (.inl ⟨_,‹_›,(some.inj h).symm⟩)))
    · cases h
  | waitForState eState tmTimeout errorIsFailure =>
    cases h
    exact .inr (.inr (.inr (.inr ⟨.inr ⟨_,rfl,rfl⟩,rfl,rfl,rfl,rfl⟩)))
  | setFlags | tick =>
    cases h
    exact .inr (.inr (.inr (.inr ⟨.inl rfl,rfl,rfl,rfl,rfl⟩)))

/-- The calls see the state the last completed change ended in. A refused or cancelled attempt has changed nothing;
another has assigned its state or will. -/
structure Published (s : AwaitedMachine S) : Prop where
  last : s.reached.getLast? = some s.machine.lastStateReached
  idle : s.attempt = none → s.machine.state = s.machine.lastStateReached
  oldState : ∀ attempt, s.attempt = some attempt → attempt.change.oldState = s.machine.lastStateReached
  refused : ∀ attempt, s.attempt = some attempt → attempt.change.executed = false →
    s.machine.state = s.machine.lastStateReached ∧ ∀ call ∈ attempt.remaining, call.phase = .request
  executed : ∀ attempt, s.attempt = some attempt → attempt.change.executed = true →
    s.machine.state = attempt.change.newState ∨
      s.machine.state = s.machine.lastStateReached ∧ ∃ call ∈ attempt.remaining, call.phase = .stateChange

namespace Published
variable {s s' : AwaitedMachine S}

theorem new : Published (new : AwaitedMachine S) where
  last := rfl
  idle _ := rfl
  oldState _ h := by cases h
  refused _ h := by cases h
  executed _ h := by cases h

section
omit [CountingSemaphore S]

/-- What is not a step of an attempt changes neither the state nor what was reached. -/
theorem congr (h : Published s) (hstate : s'.machine.state = s.machine.state)
    (hlast : s'.machine.lastStateReached = s.machine.lastStateReached) (hattempt : s'.attempt = s.attempt)
    (hreached : s'.reached = s.reached) : Published s' := by
  obtain ⟨last,idle,oldState,refused,executed⟩ := h
  constructor <;> rw [hlast] <;> simpa only [hstate,hattempt,hreached]

theorem setState {newState : State} (h : Published s) (hattempt : s.attempt = none) (answers : CallbackResults) :
    Published (s.setState newState answers) where
  last := h.last
  idle hnone := by cases hnone
  oldState := by
    rintro attempt ⟨⟩
    exact h.idle hattempt
  refused := by
    rintro attempt ⟨⟩ hrefused
    exact ⟨h.idle hattempt,Machine.setState_calls_of_not_executes hrefused⟩
  executed := by
    rintro attempt ⟨⟩ hexecuted
    refine .inr ⟨h.idle hattempt,⟨.stateChange,.errNoError⟩,?_,rfl⟩
    rw [Machine.setState_calls_of_executes hexecuted]
    simp [Machine.changeCalls]

theorem callback {change : StateChange} {call : Call} {remaining : List Call} (h : Published s)
    (hattempt : s.attempt = some ⟨change,call::remaining⟩) :
    Published (s.callback ⟨change,call::remaining⟩ call remaining) where
  last := h.last
  idle hnone := by cases hnone
  oldState := by
    rintro attempt ⟨⟩
    exact h.oldState ⟨change,call::remaining⟩ hattempt
  refused := by
    rintro attempt ⟨⟩ hrefused
    obtain ⟨hstate,hcalls⟩ := h.refused _ hattempt hrefused
    obtain ⟨hcall,hremaining⟩ := forall_mem_cons.mp hcalls
    exact ⟨by simpa [AwaitedMachine.callback,hcall] using hstate,hremaining⟩
  executed := by
    rintro attempt ⟨⟩ hexecuted
    by_cases hassigns : call.phase = .stateChange
    · exact .inl (if_pos hassigns)
    · have hbefore := h.executed _ hattempt hexecuted
      simpa [AwaitedMachine.callback,hassigns] using hbefore

end

/-- At the end the machine is in the state it was in, or in the new one. -/
private theorem setStateReached {change : StateChange} (h : Published s) (hattempt : s.attempt = some ⟨change,[]⟩) :
    Published (s.setStateReached ⟨change,[]⟩) where
  last := by
    cases hexecuted : change.executed with
    | false =>
      have hstate := (h.refused _ hattempt hexecuted).1
      simpa [AwaitedMachine.setStateReached,hexecuted,hstate] using h.last
    | true =>
      have hstate := h.executed _ hattempt hexecuted
      simp only [not_mem_nil,false_and,exists_false,and_false,or_false] at hstate
      simp [AwaitedMachine.setStateReached,hexecuted,hstate]
  idle _ := rfl
  oldState _ hnone := by cases hnone
  refused _ hnone := by cases hnone
  executed _ hnone := by cases hnone

theorem step {action : AwaitedAction} (h : Published s) (hstep : step s action = some s') : Published s' := by
  obtain ⟨_,_,_,_,-,-,rfl⟩ | ⟨newState,answers,hattempt,rfl⟩ | ⟨change,call,remaining,hattempt,rfl⟩ |
    ⟨change,hattempt,rfl⟩ | ⟨-,hstate,hlast,hattempt,hreached⟩ := step_cases hstep
  · exact h.congr rfl rfl rfl rfl
  · exact h.setState hattempt answers
  · exact h.callback hattempt
  · exact h.setStateReached hattempt
  · exact h.congr hstate hlast hattempt hreached

omit [CountingSemaphore S] in
/-- The last completed change is among those since an earlier one. -/
theorem mem_drop {since : Nat} (h : Published s) (hsince : since < s.reached.length) :
    s.machine.lastStateReached ∈ s.reached.drop since := by
  refine mem_of_getLast? ?_
  rw [getLast?_drop,if_neg (Nat.not_le.mpr hsince),h.last]

end Published

end AwaitedMachine

namespace WaitCall
variable {call : WaitCall} {current : State} {clock : Int}

/-- What a call has returned is true of a moment since its start. -/
structure Truthful (count : Nat) (call : WaitCall) : Prop where
  since : call.position ≠ .called → call.since < count
  success : call.position = .returned .errNoError → ∃ state ∈ call.moments, call.eState = some state
  failure : call.position = .returned .errFailed → call.errorIsFailure = true ∧ .fsError ∈ call.moments

theorem next_eq_success (h : call.next current clock = some (.returned .errNoError)) : call.eState = some current := by
  cases hposition : call.position <;> simp only [next,reads,readsAfterWait,hposition] at h <;> grind

theorem next_eq_failure (h : call.next current clock = some (.returned .errFailed)) :
    call.errorIsFailure = true ∧ current = .fsError := by
  cases hposition : call.position <;> simp only [next,reads,readsAfterWait,hposition] at h <;> grind

/-- The call has not given up, and looks once more before it does. -/
def NotGivenUp : WaitPosition → Prop
  | .looping waitTime => 0 < waitTime
  | .returned result => result ≠ .errTimeout
  | _ => True

theorem TimeLeft.notGivenUp (h : call.TimeLeft clock) : NotGivenUp call.position := by
  cases hposition : call.position <;> simp_all [TimeLeft,NotGivenUp]

/-- While the wanted state is the one to see, the look at the end of a wait finds it. -/
theorem notGivenUp_next {position : WaitPosition} (h : NotGivenUp call.position)
    (hstate : call.eState = some current) (hnext : call.next current clock = some position) : NotGivenUp position := by
  cases hposition : call.position <;>
    simp only [next,reads,readsAfterWait,hposition,hstate,NotGivenUp] at h hnext <;> grind [NotGivenUp]

end WaitCall

namespace AwaitedMachine
variable {S : Type} [CountingSemaphore S] {s s' : AwaitedMachine S} {call call' : WaitCall} {index : Nat}

omit [CountingSemaphore S] in
/-- A look finds the state of the last completed change, which is one of the moments of the call. -/
theorem Published.proceed_truthful {event : S} {position : WaitPosition} (h : Published s)
    (hcalls : ∀ call ∈ s.calls, call.Truthful s.reached.length) (hcall : s.calls[index]? = some call)
    (hnext : call.next s.machine.lastStateReached s.clock = some position) :
    ∀ other ∈ (s.proceed index call event position).calls, other.Truthful s.reached.length := by
  intro other hother
  obtain hmem | rfl := mem_or_eq_of_mem_set hother
  · exact hcalls other hmem
  have hpositive : 0 < s.reached.length := length_pos_of_mem (mem_of_getLast? h.last)
  have hsince : (if call.position = .called then s.reached.length - 1 else call.since) < s.reached.length := by
    split
    · omega
    · exact (hcalls call (mem_of_getElem? hcall)).since ‹_›
  have hlast := h.mem_drop hsince
  refine ⟨fun _ => hsince,fun hposition => ?_,fun hposition => ?_⟩
  · obtain rfl : position = .returned .errNoError := hposition
    have hstate := WaitCall.next_eq_success hnext
    exact ⟨_,hlast,hstate⟩
  · obtain rfl : position = .returned .errFailed := hposition
    obtain ⟨herror,hstate⟩ := WaitCall.next_eq_failure hnext
    exact ⟨herror,hstate ▸ hlast⟩

private theorem length_reached_le {action : AwaitedAction} (h : step s action = some s') :
    s.reached.length ≤ s'.reached.length := by
  obtain ⟨_,_,_,_,-,-,rfl⟩ | ⟨_,_,-,rfl⟩ | ⟨_,_,_,-,rfl⟩ | ⟨change,-,rfl⟩ | ⟨-,-,-,-,hreached⟩ :=
    step_cases h
  · exact Nat.le_refl _
  · exact Nat.le_refl _
  · exact Nat.le_refl _
  · dsimp only [setStateReached]
    split <;> simp
  · exact Nat.le_of_eq (congrArg List.length hreached.symm)

theorem Published.truthful_step {action : AwaitedAction} (h : Published s)
    (hcalls : ∀ call ∈ s.calls, call.Truthful s.reached.length) (hstep : AwaitedMachine.step s action = some s') :
    ∀ call ∈ s'.calls, call.Truthful s'.reached.length := by
  have hlength := length_reached_le hstep
  have hkept : ∀ call ∈ s.calls, call.Truthful s'.reached.length := fun call hcall =>
    {hcalls call hcall with since := fun hbegun => Nat.lt_of_lt_of_le ((hcalls call hcall).since hbegun) hlength}
  obtain ⟨_,_,_,_,hcall,hnext,rfl⟩ | ⟨_,_,-,rfl⟩ | ⟨_,_,_,-,rfl⟩ | ⟨_,-,rfl⟩ |
    ⟨hsame | ⟨new,hnew,happend⟩,-⟩ := step_cases hstep
  · exact h.proceed_truthful hcalls hcall hnext
  · exact hkept
  · exact hkept
  · exact hkept
  · rwa [hsame]
  · rw [happend,forall_mem_append,forall_mem_singleton]
    exact ⟨hkept,fun hbegun => absurd hnew hbegun,by simp [hnew],by simp [hnew]⟩

/-- A call for a state that has not given up. -/
def WaitsFor (state : State) (index : Nat) (s : AwaitedMachine S) : Prop :=
  Published s ∧ ∃ call, s.calls[index]? = some call ∧ call.eState = some state ∧ WaitCall.NotGivenUp call.position

/-- While the wanted state is the last that was completely reached, a call that has not given up does not. -/
theorem notGivenUp_of_reaches {state : State} (hpublished : Published s) (hcall : s.calls[index]? = some call)
    (h : WaitCall.NotGivenUp call.position) (hstate : call.eState = some state)
    (hrun : Reaches step (fun t _ => t.reached.getLast? = some state) s s')
    (hcall' : s'.calls[index]? = some call') : WaitCall.NotGivenUp call'.position := by
  have hinv : WaitsFor state index s' := by
    refine Reaches.invariant hrun ⟨hpublished,call,hcall,hstate,h⟩ ?_
    rintro t action u ⟨ht,call,hcall,hstate,h⟩ hlast hstep
    refine ⟨ht.step hstep,?_⟩
    obtain rfl : t.machine.lastStateReached = state := some.inj (ht.last.symm.trans hlast)
    obtain ⟨i,other,event,position,hother,hnext,rfl⟩ | ⟨_,_,-,rfl⟩ | ⟨_,_,_,-,rfl⟩ | ⟨_,-,rfl⟩ |
      ⟨hsame | ⟨new,hnew,happend⟩,-⟩ := step_cases hstep
    · by_cases hi : i = index
      · subst hi
        obtain rfl := some.inj (hother.symm.trans hcall)
        refine ⟨_,getElem?_set_self (List.getElem?_eq_some_iff.mp hcall).1,hstate,?_⟩
        exact WaitCall.notGivenUp_next h hstate hnext
      · exact ⟨call,(getElem?_set_ne hi).trans hcall,hstate,h⟩
    · exact ⟨call,hcall,hstate,h⟩
    · exact ⟨call,hcall,hstate,h⟩
    · exact ⟨call,hcall,hstate,h⟩
    · exact ⟨call,hsame ▸ hcall,hstate,h⟩
    · have hlt := (List.getElem?_eq_some_iff.mp hcall).1
      exact ⟨call,by rw [happend,getElem?_append_left hlt,hcall],hstate,h⟩
  obtain ⟨-,call,hsame,-,h⟩ := hinv
  obtain rfl := some.inj (hcall'.symm.trans hsame)
  exact h

private theorem truthful_of_reaches (h : Reaches step anyAction (new : AwaitedMachine S) s) :
    Published s ∧ ∀ call ∈ s.calls, call.Truthful s.reached.length := by
  induction h with
  | refl => exact ⟨.new,fun call hcall => by cases hcall⟩
  | tail _ _ hstep ih => exact ⟨ih.1.step hstep,ih.1.truthful_step ih.2 hstep⟩

/-- `WaitForState` tells the truth, whoever takes the tokens: during an attempt it sees the state before; a success
or a failure was true of a moment of the call; and a call with time left when its wanted state was completely
reached does not time out before another is. -/
theorem waits_are_truthful (h : Reaches step anyAction (new : AwaitedMachine S) s)
    (hcall : s.calls[index]? = some call) :
    (∀ attempt, s.attempt = some attempt → s.machine.lastStateReached = attempt.change.oldState) ∧
    (call.position = .returned .errNoError → ∃ state ∈ call.moments, call.eState = some state) ∧
    (call.position = .returned .errFailed → call.errorIsFailure = true ∧ .fsError ∈ call.moments) ∧
    ∀ state, call.eState = some state → call.TimeLeft s.clock →
      ∀ s' call', Reaches step (fun t _ => t.reached.getLast? = some state) s s' →
        s'.calls[index]? = some call' → call'.position ≠ .returned .errTimeout := by
  obtain ⟨hpublished,hcalls⟩ := truthful_of_reaches h
  have htruthful := hcalls call (mem_of_getElem? hcall)
  refine ⟨fun attempt hattempt => (hpublished.oldState attempt hattempt).symm,htruthful.success,
    htruthful.failure,fun state hstate htime s' call' hrun hcall' htimeout => ?_⟩
  have hnot := notGivenUp_of_reaches hpublished hcall htime.notGivenUp hstate hrun hcall'
  rw [htimeout] at hnot
  exact hnot rfl

/-- A call with a timeout waits for `FS_IDLE` and one without for `FS_ERROR`; the second takes the token of the
change to `FS_IDLE`, and the first times out. -/
def tokenOfAnother : List AwaitedAction :=
  [.waitForState (some .fsIdle) 10 true,.waitForState (some .fsError) (-1) true,
    .proceed 0 false,.proceed 0 false,.proceed 0 false,.proceed 1 false,.proceed 1 false,
    .performStateTransition .stStartupDone ⟨[],[],.errNoError,[],.errNoError,.errNoError,[.errFailed],""⟩,
    .callback,.callback,.callback,.setStateReached,.proceed 1 true,.proceed 1 false,
    .tick 10,.proceed 0 false,.proceed 0 false,.proceed 0 false]

/-- The machine behind them. -/
def wokenWithoutToken : AwaitedMachine Nat where
  machine := {Machine.new with state := .fsIdle, lastStateReached := .fsIdle}
  attempt := none
  event := 0
  clock := 10
  calls :=
    [⟨some .fsIdle,10,true,.returned .errNoError,0,[.fsStartup,.fsIdle]⟩,
      ⟨some .fsError,-1,true,.waitingForever,0,[.fsStartup,.fsIdle]⟩]
  reached := [.fsStartup,.fsIdle]

theorem woken_without_token : runActions step new tokenOfAnother = some wokenWithoutToken ∧
    ∃ call ∈ wokenWithoutToken.calls, call.position = .returned .errNoError ∧
      ∃ state ∈ call.moments, call.eState = some state := by
  have hrun : runActions step new tokenOfAnother = some wokenWithoutToken := rfl
  have htruthful := @waits_are_truthful Nat _ _ _ 0 (reaches_of_runActions hrun) rfl
  exact ⟨hrun,_,mem_cons_self,rfl,htruthful.2.1 rfl⟩

end AwaitedMachine
end FepParticipant.StateMachine
