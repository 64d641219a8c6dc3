import FepParticipant.Scheduler.LockedStepScheduler

/-! The timer threads, the scheduler that wakes them up and waits for them, and their stop,
in any interleaving of their statements. -/
namespace FepParticipant.Scheduler
open Library Option

inductive TimerPosition where
  | looping
  | waiting
  | woken
  | deciding
  | executing
  | finishing
  | clearing
  | exited
  deriving DecidableEq

inductive StopPosition where
  | notStopped
  | removed
  | waking
  | joining
  | stopped
  deriving DecidableEq

/-- A timer thread, whether its timer is queued, how far its stop is, and the promises given to it. -/
structure TimerThread where
  position : TimerPosition
  manualEventOccured : Bool
  canceled : Bool
  finished : Option Nat
  wakeupTime : Int
  lastCallTime : Int
  check : JobRuntimeCheck
  queued : Bool
  stop : StopPosition
  given : List Nat

namespace TimerThread
variable (thread : TimerThread)

def new (check : JobRuntimeCheck) : TimerThread where
  position := .looping
  manualEventOccured := false
  canceled := false
  finished := none
  wakeupTime := -1
  lastCallTime := -1
  check := check
  queued := true
  stop := .notStopped
  given := []

def wakeUp (wakeupTime : Int) (finished : Option Nat) : TimerThread :=
  {thread with finished := finished, wakeupTime := wakeupTime, manualEventOccured := true}

/-- `execute` keeps the lock that `WakeUp` needs from its wait to the end of the loop body. -/
def LockFree : Prop := thread.position = .looping ∨ thread.position = .waiting ∨ thread.position = .exited

instance (thread : TimerThread) : Decidable thread.LockFree := inferInstanceAs (Decidable (_ ∨ _ ∨ _))

def reset : TimerThread := {thread with wakeupTime := -1, lastCallTime := -1}

/-- The next statement of `execute`, and the promise it fulfils. -/
def execute (answers : JobAnswers) : Option (TimerThread × Option Nat) :=
  match thread.position with
  | .looping => some ({thread with position := if thread.canceled then .exited else .waiting},none)
  | .waiting =>
    if thread.manualEventOccured then some ({thread with manualEventOccured := false, position := .woken},none)
    else none
  | .woken => some ({thread with position := if thread.canceled then .exited else .deciding},none)
  | .deciding =>
    let due := thread.lastCallTime = -1 ∨ thread.lastCallTime < thread.wakeupTime
    some ({thread with position := if due then .executing else .finishing},none)
  | .executing =>
    let report := thread.check.runJob answers
    -- a failed job leaves the loop, and the member with the promise as it is
    if isFailed report.result then some ({thread with check := report.check, position := .exited},none)
    else some ({thread with check := report.check, lastCallTime := thread.wakeupTime, position := .finishing},none)
  | .finishing =>
    match thread.finished with
    | some promise => some ({thread with position := .clearing},some promise)
    | none => some ({thread with position := .looping},none)
  | .clearing => some ({thread with finished := none, position := .looping},none)
  | .exited => none

/-- The next statement of `Stop`; it may be called by the job of the timer itself. -/
def stopNext (current : Bool) (time : Int) : Option TimerThread :=
  match thread.stop with
  | .notStopped => some {thread with queued := false, stop := .removed}
  | .removed =>
    if current then
      if thread.position = .executing then some {thread with canceled := true, stop := .stopped} else none
    else some {thread with canceled := true, stop := .waking}
  | .waking => if thread.LockFree then some {thread.wakeUp time none with stop := .joining} else none
  | .joining => if thread.position = .exited then some {thread with stop := .stopped} else none
  | .stopped => none

/-- The thread has terminated, or waits for its next wake-up. -/
def Idle : Prop := thread.position = .exited ∨ thread.position = .waiting ∧ thread.manualEventOccured = false

instance (thread : TimerThread) : Decidable thread.Idle := inferInstanceAs (Decidable (_ ∨ _ ∧ _))

end TimerThread

/-- All timer threads, the promise the scheduler waits for, how many it has given, and those fulfilled. -/
structure TimerThreads where
  threads : Nat → TimerThread
  waitsFor : Option Nat
  promises : Nat
  fulfilled : List Nat

inductive TimerAction where
  | wakeUp (timer : Nat) (wakeupTime : Int) (synchron : Bool)
  | resume
  | reset (timer : Nat)
  | execute (timer : Nat) (answers : JobAnswers)
  | stop (timer : Nat) (current : Bool) (time : Int)

namespace TimerThreads

def new (checks : Nat → JobRuntimeCheck) : TimerThreads where
  threads timer := TimerThread.new (checks timer)
  waitsFor := none
  promises := 0
  fulfilled := []

def setThread (s : TimerThreads) (timer : Nat) (thread : TimerThread) : TimerThreads :=
  {s with threads := Function.update s.threads timer thread}

/-- The scheduler triggers a queued timer. The synchronous one gives it a promise and waits for it. -/
def wakeUp (s : TimerThreads) (timer : Nat) (wakeupTime : Int) (synchron : Bool) : TimerThreads :=
  let thread := s.threads timer
  if synchron then
    { s.setThread timer {thread.wakeUp wakeupTime (some s.promises) with given := s.promises::thread.given} with
      waitsFor := some s.promises
      promises := s.promises + 1 }
  else s.setThread timer (thread.wakeUp wakeupTime none)

def step (s : TimerThreads) : TimerAction → Option TimerThreads
  | .wakeUp timer wakeupTime synchron =>
    if s.waitsFor = none ∧ (s.threads timer).queued ∧ (s.threads timer).LockFree then
      some (s.wakeUp timer wakeupTime synchron)
    else none
  | .resume =>
    match s.waitsFor with
    | some promise => if promise ∈ s.fulfilled then some {s with waitsFor := none} else none
    | none => none
  | .reset timer =>
    if s.waitsFor = none ∧ (s.threads timer).queued then some (s.setThread timer (s.threads timer).reset)
    else none
  | .execute timer answers => do
    let (thread,promise) ← (s.threads timer).execute answers
    return {s.setThread timer thread with fulfilled := promise.toList ++ s.fulfilled}
  | .stop timer current time => do
    let thread ← (s.threads timer).stopNext current time
    return s.setThread timer thread

/-- No thread is idle with a promise given to it that is not fulfilled. -/
def NoOrphan (s : TimerThreads) : Prop :=
  ∀ timer, (s.threads timer).Idle → ∀ promise ∈ (s.threads timer).given, promise ∈ s.fulfilled

end TimerThreads

namespace TimerThread

def OnItsWay (thread : TimerThread) : Prop :=
  match thread.position with
  | .looping | .waiting => thread.manualEventOccured = true
  | .exited => False
  | _ => True

/-- What a statement does to the promise and the way to it. -/
inductive Executes (thread : TimerThread) : TimerThread × Option Nat → Prop
  | moves (next : TimerThread) : next.finished = thread.finished → next.given = thread.given →
      next.position ≠ .clearing → (thread.finished ≠ none → thread.OnItsWay → next.OnItsWay) →
      Executes thread (next,none)
  | sets (promise : Nat) : thread.finished = some promise →
      Executes thread ({thread with position := .clearing},some promise)
  | clears : thread.position = .clearing →
      Executes thread ({thread with finished := none, position := .looping},none)

def KeepsPromise (thread : TimerThread) (answers : JobAnswers) : Prop :=
  match thread.position with
  | .looping | .woken => thread.canceled = true → thread.finished = none
  | .executing => thread.finished = none ∨ thread.check.Succeeds answers
  | _ => True

variable {thread : TimerThread} {fulfilled : List Nat} {waitsFor : Option Nat}

theorem executes_of_execute {answers : JobAnswers} (hkeeps : thread.KeepsPromise answers)
    {next : TimerThread × Option Nat} (h : thread.execute answers = some next) : thread.Executes next := by
  unfold execute at h
  unfold KeepsPromise at hkeeps
  cases hposition : thread.position <;> rw [hposition] at h hkeeps <;> dsimp only at h hkeeps
  case looping =>
    cases h
    refine .moves _ rfl rfl ?_ ?_
    · dsimp only
      split <;> nofun
    · intro hfinished hway
      have hcanceled : ¬thread.canceled = true := fun hcanceled => hfinished (hkeeps hcanceled)
      rw [OnItsWay,hposition] at hway
      simpa [OnItsWay,hcanceled] using hway
  case waiting =>
    split at h
    · cases h
      exact .moves _ rfl rfl nofun fun _ _ => trivial
    · cases h
  case woken =>
    cases h
    refine .moves _ rfl rfl ?_ ?_
    · dsimp only
      split <;> nofun
    · intro hfinished _
      have hcanceled : ¬thread.canceled = true := fun hcanceled => hfinished (hkeeps hcanceled)
      simp [OnItsWay,hcanceled]
  case deciding =>
    cases h
    refine .moves _ rfl rfl ?_ fun _ _ => ?_
    · dsimp only
      split <;> nofun
    · by_cases hdue : thread.lastCallTime = -1 ∨ thread.lastCallTime < thread.wakeupTime
      · simp [OnItsWay,hdue]
      · simp [OnItsWay,hdue]
  case executing =>
    split at h
    · rename_i hfailed
      cases h
      refine .moves _ rfl rfl nofun fun hfinished _ => ?_
      rw [isFailed_iff,ne_eq,JobRuntimeCheck.runJob_ok_iff] at hfailed
      exact absurd (hkeeps.resolve_left hfinished) hfailed
    · cases h
      exact .moves _ rfl rfl nofun fun _ _ => trivial
  case finishing =>
    cases hfinished : thread.finished with
    | some promise =>
      rw [hfinished] at h
      cases h
      have hsets := Executes.sets promise hfinished
      rwa [hfinished] at hsets
    | none =>
      rw [hfinished] at h
      cases h
      exact .moves _ hfinished.symm rfl nofun fun hsome => absurd hfinished hsome
  case clearing =>
    cases h
    exact .clears hposition
  case exited => cases h

structure PromiseInv (fulfilled : List Nat) (waitsFor : Option Nat) (thread : TimerThread) : Prop where
  kept : ∀ promise ∈ thread.given, promise ∈ fulfilled ∨ thread.finished = some promise
  coming : thread.finished ≠ none → thread.OnItsWay
  cleared : thread.position = .clearing → ∀ promise, thread.finished = some promise → promise ∈ fulfilled
  awaited : ∀ promise ∈ thread.given, promise ∈ fulfilled ∨ waitsFor = some promise

section
variable (h : thread.PromiseInv fulfilled waitsFor)
include h

theorem PromiseInv.fulfilled_of_idle (hidle : thread.Idle) : ∀ promise ∈ thread.given, promise ∈ fulfilled := by
  intro promise hgiven
  rcases h.kept promise hgiven with hdone | hheld
  · exact hdone
  · have hway := h.coming (by rw [hheld]; nofun)
    rcases hidle with hexited | ⟨hwaiting,hquiet⟩
    · rw [OnItsWay,hexited] at hway
      exact hway.elim
    · rw [OnItsWay,hwaiting,hquiet] at hway
      cases hway

theorem PromiseInv.mono {more : List Nat}
    (hmore : ∀ promise ∈ fulfilled, promise ∈ more) : thread.PromiseInv more waitsFor where
  kept promise hgiven := (h.kept promise hgiven).imp_left (hmore promise)
  coming := h.coming
  cleared hposition promise hheld := hmore promise (h.cleared hposition promise hheld)
  awaited promise hgiven := (h.awaited promise hgiven).imp_left (hmore promise)

theorem PromiseInv.of_frame {next : TimerThread}
    (hfinished : next.finished = thread.finished) (hgiven : next.given = thread.given)
    (hposition : next.position = thread.position)
    (hevent : next.manualEventOccured = thread.manualEventOccured) : next.PromiseInv fulfilled waitsFor where
  kept := by rw [hfinished,hgiven]; exact h.kept
  coming := by rw [hfinished,OnItsWay,hposition,hevent]; exact h.coming
  cleared := by rw [hfinished,hposition]; exact h.cleared
  awaited := by rw [hgiven]; exact h.awaited

theorem PromiseInv.execute {next : TimerThread × Option Nat}
    (hexecutes : thread.Executes next) : next.1.PromiseInv (next.2.toList ++ fulfilled) waitsFor := by
  cases hexecutes with
  | moves next hfinished hgiven hposition hway =>
    refine ⟨?_,?_,fun hclearing => absurd hclearing hposition,?_⟩
    · rw [hfinished,hgiven]
      exact h.kept
    · rw [hfinished]
      exact fun hheld => hway hheld (h.coming hheld)
    · rw [hgiven]
      exact h.awaited
  | sets promise hheld =>
    have hmore := h.mono fun other hother => List.mem_cons_of_mem promise hother
    refine ⟨hmore.kept,fun _ => trivial,?_,hmore.awaited⟩
    intro _ other hother
    obtain rfl := some.inj (hheld.symm.trans hother)
    exact List.mem_cons_self
  | clears hposition =>
    refine ⟨?_,fun hheld => absurd rfl hheld,nofun,h.awaited⟩
    intro promise hgiven
    exact .inl ((h.kept promise hgiven).elim id (h.cleared hposition promise))

theorem PromiseInv.wakeUp_none (wakeupTime : Int) (hdone : ∀ promise ∈ thread.given, promise ∈ fulfilled) :
    (thread.wakeUp wakeupTime none).PromiseInv fulfilled waitsFor where
  kept promise hgiven := .inl (hdone promise hgiven)
  coming hheld := absurd rfl hheld
  cleared _ _ hheld := nomatch hheld
  awaited := h.awaited

end

theorem PromiseInv.wakeUp_some (h : thread.PromiseInv fulfilled none) (wakeupTime : Int) (promise : Nat)
    (hexited : thread.position ≠ .exited) (hfree : thread.LockFree) :
    {thread.wakeUp wakeupTime (some promise) with given := promise::thread.given}.PromiseInv
      fulfilled (some promise) := by
  have hdone : ∀ other ∈ promise::thread.given, other ∈ fulfilled ∨ some promise = some other := by
    intro other hother
    rcases List.mem_cons.mp hother with rfl | hgiven
    · exact .inr rfl
    · exact .inl ((h.awaited other hgiven).resolve_right nofun)
  refine ⟨hdone,fun _ => ?_,fun hclearing => ?_,hdone⟩
  · unfold OnItsWay wakeUp
    rcases hfree with hlooping | hwaiting | hended
    · simp [hlooping]
    · simp [hwaiting]
    · exact absurd hended hexited
  · have hclearing : thread.position = .clearing := hclearing
    rw [LockFree,hclearing] at hfree
    simp at hfree

end TimerThread

namespace TimerThreads

/-- Nothing comes between a promise and its thread: jobs run for a promise succeed, a thread is cancelled or stopped
only without one, and none is given to a thread that has ended. -/
def Undisturbed (s : TimerThreads) : TimerAction → Prop
  | .execute timer answers => (s.threads timer).KeepsPromise answers
  | .wakeUp timer _ synchron => synchron = true → (s.threads timer).position ≠ .exited
  | .stop timer _ _ => (s.threads timer).stop = .waking → (s.threads timer).finished = none
  | .resume | .reset _ => True

def PromisesInv (s : TimerThreads) : Prop := ∀ timer, (s.threads timer).PromiseInv s.fulfilled s.waitsFor

variable {s s' : TimerThreads}

theorem promisesInv_new (checks : Nat → JobRuntimeCheck) : (new checks).PromisesInv := fun _ =>
  ⟨nofun,fun hheld => absurd rfl hheld,nofun,nofun⟩

theorem promisesInv_update {threads : Nat → TimerThread} {fulfilled : List Nat} {waitsFor : Option Nat}
    {timer : Nat} {thread : TimerThread} (hthread : thread.PromiseInv fulfilled waitsFor)
    (hothers : ∀ other, other ≠ timer → (threads other).PromiseInv fulfilled waitsFor) (other : Nat) :
    (Function.update threads timer thread other).PromiseInv fulfilled waitsFor := by
  by_cases hother : other = timer
  · subst hother
    rwa [Function.update_self]
  · rw [Function.update_of_ne hother]
    exact hothers other hother

theorem promisesInv_stop {thread next : TimerThread} {fulfilled : List Nat} {waitsFor : Option Nat}
    {current : Bool} {time : Int} (h : thread.PromiseInv fulfilled waitsFor)
    (hundisturbed : thread.stop = .waking → thread.finished = none)
    (hnext : thread.stopNext current time = some next) : next.PromiseInv fulfilled waitsFor := by
  unfold TimerThread.stopNext at hnext
  cases hstop : thread.stop <;> rw [hstop] at hnext <;> dsimp only at hnext
  case notStopped =>
    cases hnext
    exact h.of_frame rfl rfl rfl rfl
  case removed =>
    split at hnext
    · split at hnext
      · cases hnext
        exact h.of_frame rfl rfl rfl rfl
      · cases hnext
    · cases hnext
      exact h.of_frame rfl rfl rfl rfl
  case waking =>
    obtain ⟨-,hnext⟩ := ite_none_right_eq_some.mp hnext
    cases hnext
    have hnone := hundisturbed hstop
    have hwoken := h.wakeUp_none time fun promise hgiven =>
      (h.kept promise hgiven).resolve_right (by rw [hnone]; nofun)
    exact hwoken.of_frame rfl rfl rfl rfl
  case joining =>
    split at hnext
    · cases hnext
      exact h.of_frame rfl rfl rfl rfl
    · cases hnext
  case stopped => cases hnext

theorem promisesInv_step {action : TimerAction} (h : s.PromisesInv) (hundisturbed : s.Undisturbed action)
    (hstep : s.step action = some s') : s'.PromisesInv := by
  cases action with
  | wakeUp timer wakeupTime synchron =>
    rw [step] at hstep
    split at hstep
    · rename_i hready
      cases hstep
      have hidle : ∀ other, (s.threads other).PromiseInv s.fulfilled none := fun other => hready.1 ▸ h other
      have hdone : ∀ other, ∀ promise ∈ (s.threads other).given, promise ∈ s.fulfilled :=
        fun other promise hgiven => ((hidle other).awaited promise hgiven).resolve_right nofun
      cases synchron with
      | false => exact promisesInv_update ((h timer).wakeUp_none wakeupTime (hdone timer)) fun other _ => h other
      | true =>
        refine promisesInv_update
          ((hidle timer).wakeUp_some wakeupTime s.promises (hundisturbed rfl) hready.2.2) ?_
        intro other _
        exact ⟨(h other).kept,(h other).coming,(h other).cleared,
          fun promise hgiven => .inl (hdone other promise hgiven)⟩
    · cases hstep
  | resume =>
    rw [step] at hstep
    split at hstep
    · rename_i promise hwaits
      split at hstep
      · rename_i hdone
        cases hstep
        intro timer
        refine ⟨(h timer).kept,(h timer).coming,(h timer).cleared,fun other hgiven => .inl ?_⟩
        rcases (h timer).awaited other hgiven with hother | hother
        · exact hother
        · obtain rfl := some.inj (hwaits.symm.trans hother)
          exact hdone
      · cases hstep
    · cases hstep
  | reset timer =>
    rw [step] at hstep
    split at hstep
    · cases hstep
      exact promisesInv_update ((h timer).of_frame rfl rfl rfl rfl) fun other _ => h other
    · cases hstep
  | execute timer answers =>
    obtain ⟨next,hnext,hs⟩ := bind_eq_some_iff.mp hstep
    cases hs
    refine promisesInv_update ((h timer).execute (TimerThread.executes_of_execute hundisturbed hnext)) ?_
    intro other _
    exact (h other).mono fun promise hmem => List.mem_append_right _ hmem
  | stop timer current time =>
    obtain ⟨next,hnext,hs⟩ := bind_eq_some_iff.mp hstep
    cases hs
    exact promisesInv_update (promisesInv_stop (h timer) hundisturbed hnext) fun other _ => h other

/-- In every run in which nothing comes between the promises and their threads, no thread is idle
with a promise that is not fulfilled. -/
theorem no_orphaned_promise (checks : Nat → JobRuntimeCheck) (s : TimerThreads)
    (h : Reaches step Undisturbed (new checks) s) : s.NoOrphan := by
  have hinv : s.PromisesInv := h.invariant (promisesInv_new checks) fun _ _ _ ht hundisturbed hstep =>
    promisesInv_step ht hundisturbed hstep
  intro timer hidle
  exact (hinv timer).fulfilled_of_idle hidle

instance (thread : TimerThread) (answers : JobAnswers) : Decidable (thread.KeepsPromise answers) := by
  unfold TimerThread.KeepsPromise
  cases thread.position <;> infer_instance

instance (s : TimerThreads) (action : TimerAction) : Decidable (s.Undisturbed action) :=
  match action with
  | .execute timer answers => inferInstanceAs (Decidable ((s.threads timer).KeepsPromise answers))
  | .wakeUp _ _ _ | .stop _ _ _ => inferInstanceAs (Decidable (_ → _))
  | .resume | .reset _ => inferInstanceAs (Decidable True)

/-- A job without violations, and one that fails. -/
private def succeeding : JobAnswers := ⟨.errNoError,.errNoError,0,.errNoError,.errNoError⟩

private def failing : JobAnswers := ⟨.errNoError,.errFailed,0,.errNoError,.errNoError⟩

private def unchecked (_ : Nat) : JobRuntimeCheck := .new "job" .tsIgnoreRuntimeViolation 0

/-- Two timers are woken with promises one after the other, then the first is stopped. -/
theorem no_orphaned_promise_fulfilled : ∃ s : TimerThreads,
    Reaches step Undisturbed (new unchecked) s ∧ s.fulfilled = [1,0] ∧ (s.threads 0).stop = .stopped ∧
      s.NoOrphan := by
  obtain ⟨s,hreach,hdone,hstopped⟩ : ∃ s, Reaches step Undisturbed (new unchecked) s ∧
      s.fulfilled = [1,0] ∧ (s.threads 0).stop = .stopped :=
    exists_of_runAllowed ([TimerAction.wakeUp 0 0 true] ++ List.replicate 7 (TimerAction.execute 0 succeeding) ++
      [TimerAction.resume,.wakeUp 1 0 true] ++ List.replicate 7 (TimerAction.execute 1 succeeding) ++
      [TimerAction.resume,.execute 0 succeeding] ++ List.replicate 3 (TimerAction.stop 0 false 4) ++
      List.replicate 2 (TimerAction.execute 0 succeeding) ++ [TimerAction.stop 0 false 4]) (by decide +kernel)
  exact ⟨s,hreach,hdone,hstopped,no_orphaned_promise unchecked s hreach⟩

private theorem orphaned_of_run (actions : List TimerAction)
    (h : (runActions step (new unchecked) actions).any (fun s => decide ((s.threads 0).Idle ∧
      ∃ promise ∈ (s.threads 0).given, promise ∉ s.fulfilled)) = true) :
    ∃ s, Reaches step anyAction (new unchecked) s ∧ ¬s.NoOrphan := by
  obtain ⟨s,hreach,hidle,promise,hgiven,hpending⟩ := exists_of_runActions actions h
  exact ⟨s,hreach,fun hnone => hpending (hnone 0 hidle promise hgiven)⟩

/-- A job fails. -/
theorem promise_orphaned : ∃ s : TimerThreads, Reaches step anyAction (new unchecked) s ∧ ¬s.NoOrphan := by
  apply orphaned_of_run ([TimerAction.wakeUp 0 0 true] ++ List.replicate 5 (TimerAction.execute 0 failing))
  decide +kernel

end TimerThreads

end FepParticipant.Scheduler
