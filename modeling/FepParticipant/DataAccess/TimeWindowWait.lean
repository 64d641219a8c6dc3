import FepParticipant.DataAccess.DataSampleBuffer

/-! Waiting for a sample in a time window: the search before the wait and those after each wake-up, and what they say
about the backlog. -/
namespace FepParticipant.DataAccess
open Library Transmission Option Bool OrderedMultiset

namespace DataSampleBuffer

/-- `GetMostRecent`; an empty backlog has no last slot. -/
def mostRecent (buffer : DataSampleBuffer) : Option Int :=
  (buffer.latestSlot.bind buffer.samples.get?).map (·.tmSample)

end DataSampleBuffer

/-- The waiter holds the lock again: whether it was notified, what the backlog holds, and the checks of the shutdown
and of the time left. -/
structure WakeUp where
  notified : Bool
  backlog : DataSampleBuffer
  shutdown : Bool
  expired : Bool

/-- How far a call of `WaitUntilInTimeWindow` came, with the backlog at the moment of its decision. -/
inductive WaitOutcome where
  | waiting
  | outOfBacklog
  | returned (result : Result) (backlog : DataSampleBuffer)

/-- `older_than` is the end of the window and `more_recent_than` its start. -/
structure TimeWindow where
  moreRecentThan : Int
  olderThan : Int

namespace TimeWindow

variable {window : TimeWindow} {buffer : DataSampleBuffer} {wakeUp : WakeUp} {wakeUps : List WakeUp}
  {result : Result} {expired : Bool} {tmMostRecent : Int}

/-- The decision before waiting, if there is one; no result where an iterator is outside the backlog. -/
def decideFirst (window : TimeWindow) (buffer : DataSampleBuffer) : Option (Option Result) :=
  buffer.mostRecent.bind fun tmMostRecent =>
    if window.moreRecentThan ≤ tmMostRecent then
      if tmMostRecent ≤ window.olderThan then some (some .errNoError)
      else
        let it := buffer.samples.upperBound window.olderThan
        -- std::advance(it, (-1))
        if it = 0 then none
        else (buffer.samples.get? (it - 1)).map fun slot =>
          some (if window.moreRecentThan ≤ slot.tmSample then .errNoError else .errFailed)
    else some none

/-- The decision after a wake-up, if there is one. -/
def decideAwake (window : TimeWindow) (wakeUp : WakeUp) : Option (Option Result) :=
  let stillWaiting : Option Result :=
    if wakeUp.shutdown then some .errCancelled
    else if wakeUp.expired then some .errTimeout
    else none
  if wakeUp.notified then
    wakeUp.backlog.mostRecent.map fun tmMostRecent =>
      if window.moreRecentThan ≤ tmMostRecent then
        some (if tmMostRecent ≤ window.olderThan then .errNoError else .errTimeout)
      else stillWaiting
  else some stillWaiting

def waitLoop (window : TimeWindow) : List WakeUp → WaitOutcome
  | [] => .waiting
  | wakeUp::wakeUps =>
    match window.decideAwake wakeUp with
    | none => .outOfBacklog
    | some (some result) => .returned result wakeUp.backlog
    | some none => window.waitLoop wakeUps

/-- `expired` says whether there is no time to wait from the start. -/
def waitUntilInTimeWindow (window : TimeWindow) (buffer : DataSampleBuffer) (expired : Bool)
    (wakeUps : List WakeUp) : WaitOutcome :=
  if window.olderThan < window.moreRecentThan then .returned .errInvalidArg buffer
  else
    match window.decideFirst buffer with
    | none => .outOfBacklog
    | some (some result) => .returned result buffer
    | some none => if expired then .returned .errTimeout buffer else window.waitLoop wakeUps

/-- A sample inside the window is in the backlog. The default content counts as one at time 0. -/
def Holds (window : TimeWindow) (buffer : DataSampleBuffer) : Prop :=
  ∃ slot ∈ buffer.samples.elements, slot.isUnused = false ∧
    window.moreRecentThan ≤ slot.tmSample ∧ slot.tmSample ≤ window.olderThan

/-- Success means that there is a sample in the window, and the search before waiting would say the same. -/
def Right (window : TimeWindow) : WaitOutcome → Prop
  | .waiting => True
  | .outOfBacklog => False
  | .returned result backlog => (isOk result = true ↔ window.Holds backlog) ∧
    ∀ first, window.decideFirst backlog = some (some first) → isOk first = isOk result

def Ends (window : TimeWindow) (wakeUp : WakeUp) : Bool :=
  (wakeUp.notified && wakeUp.backlog.mostRecent.all (window.moreRecentThan ≤ ·)) ||
    wakeUp.shutdown || wakeUp.expired

/-- The newest sample is in the window and announced, or no sample is in the window at all. -/
def SafeAwake (window : TimeWindow) (wakeUp : WakeUp) : Prop :=
  (wakeUp.notified = true → wakeUp.backlog.samples.size ≠ 0) ∧
  ((wakeUp.notified = true ∧ ∃ tmMostRecent ∈ wakeUp.backlog.mostRecent,
      window.moreRecentThan ≤ tmMostRecent ∧ tmMostRecent ≤ window.olderThan) ∨
    ¬window.Holds wakeUp.backlog)

def Safe (window : TimeWindow) (buffer : DataSampleBuffer) (expired : Bool) (wakeUps : List WakeUp) : Prop :=
  (∃ slot ∈ buffer.samples.elements, slot.tmSample ≤ window.olderThan) ∧
  ((∃ slot ∈ buffer.samples.elements, window.moreRecentThan ≤ slot.tmSample) ∨ expired = true ∨
    ∀ wakeUp ∈ wakeUps.find? (window.Ends ·), window.SafeAwake wakeUp)

theorem holds_iff (hstart : 0 ≤ window.moreRecentThan) : window.Holds buffer ↔ ∃ slot ∈ buffer.samples.elements,
      window.moreRecentThan ≤ slot.tmSample ∧ slot.tmSample ≤ window.olderThan := by
  constructor
  · rintro ⟨slot,hslot,-,hwindow⟩
    exact ⟨slot,hslot,hwindow⟩
  · rintro ⟨slot,hslot,hwindow⟩
    refine ⟨slot,hslot,?_,hwindow⟩
    rw [SampleSlot.isUnused,beq_eq_false_iff_ne]
    omega

end TimeWindow
end FepParticipant.DataAccess
