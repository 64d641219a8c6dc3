import FepParticipant.Timing.ClientWatchdog
import FepParticipant.Timing.TimingMaster

/-! Durations that are computed from properties and configurations in seconds and milliseconds, in the
words the code computes them in. -/
namespace FepParticipant.Timing
open Library

/-- The configuration that `TimingMaster::start` adds for the minimum trigger time. -/
def minTriggerConfig (minTriggerTime : Int) : ScheduleConfig := ⟨"",wrap32 (minTriggerTime * 1000)⟩

/-- What `TimingClient::configure` makes of the timeout in the configuration file and of the property, which
goes before it. -/
def configureSystemTimeout (systemTimeout : Int) (participant property : Option Int) : Int :=
  match property, participant with
  | some systemTimeoutS, _ => ClientWatchdog.timeoutOf systemTimeoutS
  | none, some systemTimeoutS => wrap64 (wrap64 (systemTimeoutS * 1000) * 1000)
  | none, none => systemTimeout

structure DiscreteClockUpdater where
  cycleTime : Int

def DiscreteClockUpdater.updateConfiguration (cycleTime : Int) : DiscreteClockUpdater := ⟨wrap32 (cycleTime * 1000)⟩

/-- The step size and the next request are words of 32 bits. -/
structure FarClockUpdater where
  onDemandStepSize : Int
  nextRequestGettime : Int

namespace FarClockUpdater

def setNextRequest (updater : FarClockUpdater) (currentMilliseconds : Int) : FarClockUpdater :=
  {updater with nextRequestGettime := wrap32 (wrap64 (currentMilliseconds + updater.onDemandStepSize))}

/-- The time until the next request; the first one does not wait. -/
def currentDemandTimeDiff (updater : FarClockUpdater) (currentMilliseconds : Int) : Option Int :=
  if updater.nextRequestGettime = -1 then none
  else some (wrap64 (updater.nextRequestGettime - currentMilliseconds))

theorem currentDemandTimeDiff_iff (updater : FarClockUpdater) {now later : Int} (hnow : -2 ^ 63 ≤ now ∧ now < 2 ^ 63)
    (hstep : 0 < updater.onDemandStepSize ∧ updater.onDemandStepSize < 2 ^ 31) :
    (updater.setNextRequest now).currentDemandTimeDiff later = some (now + updater.onDemandStepSize - later) ↔
      (-2 ^ 31 ≤ now + updater.onDemandStepSize ∧ now + updater.onDemandStepSize < 2 ^ 31) ∧
      now + updater.onDemandStepSize ≠ -1 ∧
      -2 ^ 63 ≤ now + updater.onDemandStepSize - later ∧ now + updater.onDemandStepSize - later < 2 ^ 63 := by
  rw [currentDemandTimeDiff,setNextRequest]
  dsimp only
  rw [wrap32_wrap64]
  generalize hnext : now + updater.onDemandStepSize = next
  have hlo := le_wrap32 next
  have hhi := wrap32_lt next
  constructor
  · intro h
    split at h
    · cases h
    · rename_i hwait
      have hdiff := Option.some.inj h
      obtain ⟨k,hk⟩ := exists_wrap64_eq (wrap32 next - later)
      have hexact : wrap32 next = next := by omega
      have hrange : -2 ^ 63 ≤ next - later ∧ next - later < 2 ^ 63 := by
        rw [← hdiff]
        exact ⟨le_wrap64 _,wrap64_lt _⟩
      exact ⟨wrap32_eq_self_iff.mp hexact,hexact ▸ hwait,hrange⟩
  · rintro ⟨hword,hwait,hdiff⟩
    rw [wrap32_eq_self_iff.mpr hword,if_neg hwait,wrap64_of_range hdiff.1 hdiff.2]

end FarClockUpdater

private theorem milliseconds_exact_iff {value : Int} (hpos : 0 < value) :
    wrap32 (value * 1000) = value * 1000 ↔ value ≤ 2147483 := by
  rw [wrap32_eq_self_iff]
  omega

private theorem seconds_exact_iff {value : Int} (hpos : 0 < value) :
    wrap32 (wrap32 (value * 1000) * 1000) = value * 1000 * 1000 ↔ value ≤ 2147 := by
  rw [wrap32_wrap32_mul,wrap32_eq_self_iff]
  omega

/-- The durations computed from a positive value of 32 bits are exact up to these bounds. -/
theorem conversions_exact_iff {S : Type} [CountingSemaphore S] {value now later : Int} (hpos : 0 < value)
    (hword : value < 2 ^ 31) (hnow : -2 ^ 63 ≤ now ∧ now < 2 ^ 63) : (∀ master : TimingMaster S,
      (master.configureAckTimeout (some value)).1.acknowledgeWaitTimeout = value * 1000 * 1000 ↔ value ≤ 2147) ∧
    ((minTriggerConfig value).cycleTimeUs = value * 1000 ↔ value ≤ 2147483) ∧ (∀ systemTimeout participant,
      configureSystemTimeout systemTimeout participant (some value) = value * 1000 * 1000 ↔ value ≤ 2147) ∧
    (∀ systemTimeout, configureSystemTimeout systemTimeout (some value) none = value * 1000 * 1000) ∧
    ((DiscreteClockUpdater.updateConfiguration value).cycleTime = value * 1000 ↔ value ≤ 2147483) ∧
    ∀ updater : FarClockUpdater, updater.onDemandStepSize = value →
      ((updater.setNextRequest now).currentDemandTimeDiff later = some (now + value - later) ↔
        (-2 ^ 31 ≤ now + value ∧ now + value < 2 ^ 31) ∧ now + value ≠ -1 ∧
        -2 ^ 63 ≤ now + value - later ∧ now + value - later < 2 ^ 63) := by
  refine ⟨?_,milliseconds_exact_iff hpos,?_,?_,milliseconds_exact_iff hpos,?_⟩
  · intro master
    rw [TimingMaster.configureAckTimeout,if_pos hpos]
    exact seconds_exact_iff hpos
  · intro systemTimeout participant
    exact seconds_exact_iff hpos
  · intro systemTimeout
    have hmilliseconds : wrap64 (value * 1000) = value * 1000 := wrap64_of_range (by omega) (by omega)
    rw [configureSystemTimeout,hmilliseconds]
    exact wrap64_of_range (by omega) (by omega)
  · rintro updater rfl
    exact updater.currentDemandTimeDiff_iff hnow ⟨hpos,hword⟩

/-- A timeout of 2147 seconds is exact, a step size of as many milliseconds is not: the clock of the system has
left 32 bits. -/
theorem conversions_exact_iff_2147 :
    ((TimingMaster.new : TimingMaster Nat).configureAckTimeout (some 2147)).1.acknowledgeWaitTimeout =
      2147 * 1000 * 1000 ∧
    ((⟨2147,-1⟩ : FarClockUpdater).setNextRequest 1700000000000).currentDemandTimeDiff 1700000000000 ≠
      some (1700000000000 + 2147 - 1700000000000) := by
  obtain ⟨hack,-,-,-,-,hfar⟩ :=
    @conversions_exact_iff Nat _ 2147 1700000000000 1700000000000 (by decide) (by decide) (by decide)
  refine ⟨(hack .new).mpr (by decide),fun hexact => ?_⟩
  have hword := ((hfar ⟨2147,-1⟩ rfl).mp hexact).1.2
  omega

/-- An acknowledgement timeout of 2148 seconds leaves the 32 bits it is computed in. -/
theorem ackTimeout_inexact : ¬∀ value : Int, 0 < value → value < 2 ^ 31 → ∀ master : TimingMaster Nat,
    (master.configureAckTimeout (some value)).1.acknowledgeWaitTimeout = value * 1000 * 1000 := by
  intro h
  exact absurd (h 2148 (by decide) (by decide) .new) (by decide)

end FepParticipant.Timing
