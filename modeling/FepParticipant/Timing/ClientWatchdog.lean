import FepParticipant.Library.Reachability
import FepParticipant.Timing.TimingClient

/-! The watchdog of a timing client over all its runs: it counts its own checks since the last trigger,
and the count outlives the run. -/
namespace FepParticipant.Timing
open Library CountingSemaphore Int

variable {S : Type} [CountingSemaphore S]

/-- `Task::destroy`; the next `create` resets both semaphores. -/
def Task.destroy (task : Task S) : Task S :=
  { task with
    threadShutdownSemaphore := notify task.threadShutdownSemaphore
    barrier := notify task.barrier
    working := false }

def TimingClient.stop (client : TimingClient S) : TimingClient S :=
  { client with
    taskMap := client.taskMap.map Task.destroy
    triggerWaitTimerRunning := false
    timingClientRunningFlag := false
    currentSimulationTime := 0 }

structure ClientWatchdog (S : Type) where
  client : TimingClient S
  systemTimeout : Int
  isTimeout : Bool

namespace ClientWatchdog

/-- `watchdog_period` in microseconds. -/
def watchdogPeriod : Int := 100 * 1000

def triggerTimeout : Incident where
  code := .fsiTimingClientTriggerTimeout
  severity := .criticalGlobal
  description := "Timing Client did not receive any triggers from Timing Master during system timeout."
  origin := "TimingClient"

/-- The seconds of the property in microseconds; the products are computed in 32 bits. -/
def timeoutOf (systemTimeoutS : Int) : Int := wrap32 (wrap32 (systemTimeoutS * 1000) * 1000)

def new (taskMap : List (Task S)) (systemTimeoutS : Int) : ClientWatchdog S where
  client := {
    taskMap := taskMap
    currentSimulationTime := 0
    timeProgressSum := 0
    lastTriggerReceived := 0
    triggerWaitTimerPeriod :=
      if !taskMap.isEmpty && decide (0 < timeoutOf systemTimeoutS) then watchdogPeriod else 0
    triggerWaitTimerRunning := false
    timingClientRunningFlag := false }
  systemTimeout := timeoutOf systemTimeoutS
  isTimeout := false

/-- The timeout is over and has not been reported. -/
def expires (watchdog : ClientWatchdog S) : Bool :=
  decide (watchdog.systemTimeout < watchdog.client.lastTriggerReceived) && !watchdog.isTimeout

/-- `CheckSystemTimeout`, the callback of the timer. -/
def checkSystemTimeout (watchdog : ClientWatchdog S) : ClientWatchdog S × List Effect :=
  ({ watchdog with
      client := { watchdog.client with
        lastTriggerReceived := wrap64 (watchdog.client.lastTriggerReceived + watchdogPeriod) }
      isTimeout := watchdog.isTimeout || watchdog.expires },
    if watchdog.expires then [.invokeIncident triggerTimeout,.errorEvent] else [])

def start (watchdog : ClientWatchdog S) : ClientWatchdog S := {watchdog with client := watchdog.client.start}

def stop (watchdog : ClientWatchdog S) : ClientWatchdog S := {watchdog with client := watchdog.client.stop}

def update (watchdog : ClientWatchdog S) (trigger : TriggerTick) : ClientWatchdog S :=
  {watchdog with client := (watchdog.client.update trigger).1}

end ClientWatchdog

/-- A watchdog with its history: the time of the last trigger of the latest run, or of its start, what was counted
then, the checks since, and whether one has raised the error. -/
structure WatchedRuns (S : Type) where
  watchdog : ClientWatchdog S
  since : Int
  carried : Int
  checks : Nat
  raised : Bool

inductive WatchdogEvent where
  | start (time : Int)
  | update (time : Int) (trigger : TriggerTick)
  | checkSystemTimeout (time : Int)
  | stop (time : Int)

namespace WatchedRuns
open ClientWatchdog

def new (taskMap : List (Task S)) (systemTimeoutS : Int) : WatchedRuns S :=
  ⟨.new taskMap systemTimeoutS,0,0,0,false⟩

def step (s : WatchedRuns S) : WatchdogEvent → Option (WatchedRuns S)
  | .start time =>
    if s.watchdog.client.timingClientRunningFlag then none
    else some ⟨s.watchdog.start,time,s.watchdog.client.lastTriggerReceived,0,false⟩
  | .update time trigger => some ⟨s.watchdog.update trigger,time,0,0,false⟩
  | .checkSystemTimeout _ =>
    if s.watchdog.client.triggerWaitTimerRunning then
      some { s with
        watchdog := s.watchdog.checkSystemTimeout.1
        checks := s.checks + 1
        raised := s.raised || s.watchdog.expires }
    else none
  | .stop _ =>
    if s.watchdog.client.timingClientRunningFlag then some {s with watchdog := s.watchdog.stop} else none

def Raises (s : WatchedRuns S) : Prop := .invokeIncident triggerTimeout ∈ s.watchdog.checkSystemTimeout.2

/-- A check raises the error exactly if more than the timeout has passed since the last trigger of this run, and
none has raised it since. -/
def RaisesInTime (s : WatchedRuns S) (time : Int) : Prop :=
  s.Raises ↔ s.watchdog.systemTimeout < time - s.since ∧ s.raised = false

/-- The error has been raised since the last trigger, or before with the timeout not passed; or it was never raised,
and the checks since, with what earlier runs left, count to more than the timeout exactly if more has passed. -/
def CountsInTime (s : WatchedRuns S) (time : Int) : Prop :=
  s.raised = true ∨
    if s.watchdog.isTimeout then time - s.since ≤ s.watchdog.systemTimeout
    else s.watchdog.systemTimeout < s.carried + watchdogPeriod * s.checks ↔
      s.watchdog.systemTimeout < time - s.since

instance (s : WatchedRuns S) (time : Int) : Decidable (s.CountsInTime time) :=
  inferInstanceAs (Decidable (_ ∨ ite _ _ _))

/-- As long as the error was never raised, the count is that of the checks. -/
structure Inv (s : WatchedRuns S) : Prop where
  counted : s.watchdog.isTimeout = false →
    s.watchdog.client.lastTriggerReceived = s.carried + watchdogPeriod * s.checks
  low : s.watchdog.isTimeout = false → 0 ≤ s.watchdog.client.lastTriggerReceived
  high : s.watchdog.isTimeout = false → s.watchdog.client.lastTriggerReceived < 2 ^ 32
  timeout : s.watchdog.systemTimeout < 2 ^ 31
  raised : s.raised = true → s.watchdog.isTimeout = true

variable {s s' : WatchedRuns S} {event : WatchdogEvent}

section
omit [CountingSemaphore S]

theorem raises_iff : s.Raises ↔ s.watchdog.expires = true := by
  unfold Raises checkSystemTimeout
  split
  · rename_i hexpires
    exact iff_of_true List.mem_cons_self hexpires
  · rename_i hexpires
    exact iff_of_false nofun hexpires

theorem inv_new (taskMap : List (Task S)) (systemTimeoutS : Int) : Inv (new taskMap systemTimeoutS) where
  counted _ := rfl
  low _ := le_refl _
  high _ := by
    show (0 : Int) < 2 ^ 32
    decide
  timeout := wrap32_lt _
  raised := nofun

end

theorem lastTriggerReceived_update (client : TimingClient S) (trigger : TriggerTick) :
    (client.update trigger).1.lastTriggerReceived = 0 := by
  unfold TimingClient.update
  dsimp only
  split <;> rfl

section
omit [CountingSemaphore S]

theorem expires_iff : s.watchdog.expires = true ↔
    s.watchdog.systemTimeout < s.watchdog.client.lastTriggerReceived ∧ s.watchdog.isTimeout = false := by
  simp [expires]

theorem inv_check (h : Inv s) : Inv { s with
    watchdog := s.watchdog.checkSystemTimeout.1
    checks := s.checks + 1
    raised := s.raised || s.watchdog.expires } := by
  have hquiet (hfalse : (s.watchdog.isTimeout || s.watchdog.expires) = false) : s.watchdog.isTimeout = false ∧
      wrap64 (s.watchdog.client.lastTriggerReceived + watchdogPeriod) =
        s.watchdog.client.lastTriggerReceived + watchdogPeriod ∧
      0 ≤ s.watchdog.client.lastTriggerReceived ∧
      s.watchdog.client.lastTriggerReceived ≤ s.watchdog.systemTimeout := by
    obtain ⟨htimeout,hexpires⟩ := Bool.or_eq_false_iff.mp hfalse
    have hle : ¬s.watchdog.systemTimeout < s.watchdog.client.lastTriggerReceived := by
      intro hlt
      rw [expires_iff.mpr ⟨hlt,htimeout⟩] at hexpires
      cases hexpires
    have hlow := h.low htimeout
    have hbound := h.timeout
    have hperiod : watchdogPeriod = 100000 := rfl
    exact ⟨htimeout,wrap64_of_nonneg (by omega) (by omega),hlow,not_lt.mp hle⟩
  have hperiod : watchdogPeriod = 100000 := rfl
  have hbound := h.timeout
  refine ⟨fun hfalse => ?_,fun hfalse => ?_,fun hfalse => ?_,h.timeout,fun hraised => ?_⟩
  · obtain ⟨htimeout,hwrap,-,-⟩ := hquiet hfalse
    have hcounted := h.counted htimeout
    show wrap64 (s.watchdog.client.lastTriggerReceived + watchdogPeriod) =
      s.carried + watchdogPeriod * ((s.checks + 1 : Nat) : Int)
    rw [hwrap,hcounted]
    push_cast
    rw [mul_add,mul_one,add_assoc]
  · obtain ⟨-,hwrap,hlow,-⟩ := hquiet hfalse
    show 0 ≤ wrap64 (s.watchdog.client.lastTriggerReceived + watchdogPeriod)
    omega
  · obtain ⟨-,hwrap,-,hle⟩ := hquiet hfalse
    show wrap64 (s.watchdog.client.lastTriggerReceived + watchdogPeriod) < 2 ^ 32
    omega
  · rcases Bool.or_eq_true_iff.mp hraised with hraised | hexpires
    · exact Bool.or_eq_true_iff.mpr (.inl (h.raised hraised))
    · exact Bool.or_eq_true_iff.mpr (.inr hexpires)

end

theorem inv_step (h : Inv s) (hstep : s.step event = some s') : Inv s' := by
  cases event with
  | start time =>
    simp only [step] at hstep
    split at hstep
    · cases hstep
    · cases hstep
      refine ⟨fun _ => ?_,h.low,h.high,h.timeout,nofun⟩
      show s.watchdog.client.lastTriggerReceived = s.watchdog.client.lastTriggerReceived + watchdogPeriod * (0 : Nat)
      omega
  | update time trigger =>
    cases hstep
    have hlast := lastTriggerReceived_update s.watchdog.client trigger
    refine ⟨fun _ => hlast.trans rfl,fun _ => hlast.ge,fun _ => ?_,h.timeout,nofun⟩
    show (s.watchdog.client.update trigger).1.lastTriggerReceived < 2 ^ 32
    omega
  | checkSystemTimeout time =>
    simp only [step] at hstep
    split at hstep
    · cases hstep
      exact inv_check h
    · cases hstep
  | stop time =>
    simp only [step] at hstep
    split at hstep
    · cases hstep
      exact ⟨h.counted,h.low,h.high,h.timeout,h.raised⟩
    · cases hstep

/-- Over all runs of the client: the check raises the error as it should exactly when it counts as it should. -/
theorem raises_in_time_iff (taskMap : List (Task S)) (systemTimeoutS : Int) (s : WatchedRuns S) (time : Int)
    (h : Reaches step anyAction (new taskMap systemTimeoutS) s) : s.RaisesInTime time ↔ s.CountsInTime time := by
  have hinv : Inv s := h.invariant (inv_new taskMap systemTimeoutS) fun _ _ _ hinv _ hstep => inv_step hinv hstep
  rw [RaisesInTime,CountsInTime,raises_iff,expires_iff]
  cases hraised : s.raised with
  | true =>
    have htimeout := hinv.raised hraised
    simp [htimeout]
  | false =>
    cases htimeout : s.watchdog.isTimeout with
    | true => simp
    | false => simp [hinv.counted htimeout]

private def watchedTask : Task Nat := ⟨"Step","uuid",10,.ignoreRuntimeViolation,0,0,0,false⟩

private def checksFrom (time : Int) (count : Nat) : List WatchdogEvent :=
  (List.range count).map fun (i : Nat) => .checkSystemTimeout (time + watchdogPeriod * (i + 1))

/-- In the first run, with a timeout of one second, the twelfth check raises the error. -/
theorem raises_in_time_first_run : ∃ s : WatchedRuns Nat, Reaches step anyAction (new [watchedTask] 1) s ∧
    s.RaisesInTime 1200000 ∧ s.Raises := by
  obtain ⟨s,hreach,hfacts⟩ : ∃ s, Reaches step anyAction (new [watchedTask] 1) s ∧ s.watchdog.expires = true ∧
      s.CountsInTime 1200000 :=
    exists_of_runActions (.start 0::checksFrom 0 11) (by decide +kernel)
  obtain ⟨hexpires,hcounts⟩ := hfacts
  exact ⟨s,hreach,(raises_in_time_iff [watchedTask] 1 s 1200000 hreach).mpr hcounts,raises_iff.mpr hexpires⟩

/-- A run that is stopped in time leaves its count to the next one, whose first check raises the error. -/
theorem raised_by_earlier_run : ∃ s : WatchedRuns Nat, Reaches step anyAction (new [watchedTask] 1) s ∧
    s.Raises ∧ ¬s.watchdog.systemTimeout < 2100000 - s.since := by
  obtain ⟨s,hreach,hfacts⟩ : ∃ s, Reaches step anyAction (new [watchedTask] 1) s ∧ s.watchdog.expires = true ∧
      ¬s.watchdog.systemTimeout < 2100000 - s.since :=
    exists_of_runActions (WatchdogEvent.start 0::checksFrom 0 11 ++ [WatchdogEvent.stop 1150000,.start 2000000])
      (by decide +kernel)
  obtain ⟨hexpires,hsince⟩ := hfacts
  exact ⟨s,hreach,raises_iff.mpr hexpires,hsince⟩

end WatchedRuns

end FepParticipant.Timing
