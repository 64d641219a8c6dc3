import FepParticipant.Library.Reachability
import Mathlib.Algebra.Ring.Nat

/-! The semaphore of the participant's own, whose `post` notifies a waiting thread only if the value was zero. -/
namespace FepParticipant.Base
open Library

/-- `fast::semaphore` with the numbers of waiters that are blocked and that are notified but have not locked yet.
The completed waits and all units there have been are remembered. -/
structure FastSemaphore where
  value : Nat
  blocked : Nat
  notified : Nat
  completed : Nat
  units : Nat

/-- The critical sections. A thread in `wait` that was notified goes on when it has locked again. -/
inductive SemaphoreAction where
  | post
  | postN (i : Nat)
  | wait
  | relock
  | tryWait

namespace FastSemaphore

def new (available : Nat) : FastSemaphore := ⟨available,0,0,0,available⟩

/-- `notify_one` wakes a blocked waiter if there is one. -/
def notifyOne (s : FastSemaphore) : FastSemaphore :=
  if s.blocked = 0 then s else {s with blocked := s.blocked - 1, notified := s.notified + 1}

def notifyAll (s : FastSemaphore) : FastSemaphore := {s with blocked := 0, notified := s.notified + s.blocked}

/-- `m_value` has 64 bits. -/
def add (s : FastSemaphore) (i : Nat) : FastSemaphore :=
  {s with value := (s.value + i) % 2 ^ 64, units := s.units + i}

def post (s : FastSemaphore) : FastSemaphore := if s.value = 0 then (s.add 1).notifyOne else s.add 1

def postN (s : FastSemaphore) (i : Nat) : FastSemaphore := if s.value = 0 then (s.add i).notifyAll else s.add i

/-- The loop in `wait`, with the lock. -/
def wait (s : FastSemaphore) : FastSemaphore :=
  if s.value = 0 then {s with blocked := s.blocked + 1}
  else {s with value := s.value - 1, completed := s.completed + 1}

def tryWait (s : FastSemaphore) : FastSemaphore :=
  if s.value = 0 then s else {s with value := s.value - 1, completed := s.completed + 1}

def step (s : FastSemaphore) : SemaphoreAction → Option FastSemaphore
  | .post => some s.post
  | .postN i => some (s.postN i)
  | .wait => some s.wait
  | .relock => if s.notified = 0 then none else some {s with notified := s.notified - 1}.wait
  | .tryWait => some s.tryWait

/-- No unit is lost, and no thread stays blocked beside a unit that nobody is on the way to. -/
structure Kept (s : FastSemaphore) : Prop where
  units : s.value + s.completed = s.units
  wakeUps : ¬(0 < s.value ∧ 0 < s.blocked ∧ s.notified = 0)

/-- A post does not overflow; a notified thread takes the last unit only as the last one notified, or with nobody
else blocked. -/
def Careful (s : FastSemaphore) : SemaphoreAction → Prop
  | .post => s.value + 1 < 2 ^ 64
  | .postN i => s.value + i < 2 ^ 64
  | .relock => s.value ≤ 1 ∨ 1 < s.notified ∨ s.blocked = 0
  | .wait | .tryWait => True

/-- The step leaves every unit and every wake-up where it belongs. -/
def Keeps (s : FastSemaphore) (action : SemaphoreAction) : Prop := ∀ s', s.step action = some s' → s'.Kept

variable {s s' : FastSemaphore}

theorem kept_iff : s.Kept ↔ s.value + s.completed = s.units ∧ ¬(0 < s.value ∧ 0 < s.blocked ∧ s.notified = 0) :=
  ⟨fun h => ⟨h.units,h.wakeUps⟩,fun h => ⟨h.1,h.2⟩⟩

section
variable (h : s.Kept)
include h

/-- Behind a post the value is positive, so a waiter that stays blocked needs one that is on its way. -/
theorem kept_post_iff : s.post.Kept ↔ s.value + 1 < 2 ^ 64 := by
  obtain ⟨hunits,hwakeUps⟩ := h
  by_cases hzero : s.value = 0
  · by_cases hblocked : s.blocked = 0
    · simp [kept_iff,post,notifyOne,add,hzero,hblocked]
      omega
    · simp [kept_iff,post,notifyOne,add,hzero,hblocked]
      omega
  · simp only [kept_iff,post,add,if_neg hzero]
    omega

theorem kept_postN_iff (i : Nat) : (s.postN i).Kept ↔ s.value + i < 2 ^ 64 := by
  obtain ⟨hunits,hwakeUps⟩ := h
  by_cases hzero : s.value = 0
  · simp [kept_iff,postN,notifyAll,add,hzero]
    omega
  · simp only [kept_iff,postN,add,if_neg hzero]
    omega

theorem Kept.wait : s.wait.Kept := by
  obtain ⟨hunits,hwakeUps⟩ := h
  rw [kept_iff,FastSemaphore.wait]
  split
  · exact ⟨hunits,by simp_all⟩
  · dsimp only
    omega

private theorem Kept.tryWait : s.tryWait.Kept := by
  obtain ⟨hunits,hwakeUps⟩ := h
  rw [kept_iff,FastSemaphore.tryWait]
  split
  · exact ⟨hunits,hwakeUps⟩
  · dsimp only
    omega

/-- A notified waiter that takes a unit and leaves another one behind has to leave someone on the way to it. -/
private theorem keeps_relock_iff : s.Keeps .relock ↔ s.Careful .relock := by
  obtain ⟨hunits,hwakeUps⟩ := h
  simp only [Keeps,step,Careful]
  by_cases hnotified : s.notified = 0
  · rw [if_pos hnotified]
    exact iff_of_true nofun (by omega)
  · rw [if_neg hnotified]
    simp only [Option.some.injEq,forall_eq',kept_iff,FastSemaphore.wait]
    split <;> dsimp only <;> omega

private theorem keeps_iff (action : SemaphoreAction) : s.Keeps action ↔ s.Careful action := by
  cases action with
  | post => simpa [Keeps,step,Careful] using kept_post_iff h
  | postN i => simpa [Keeps,step,Careful] using kept_postN_iff h i
  | wait => exact iff_of_true (fun s' hstep => Option.some.inj hstep ▸ h.wait) trivial
  | relock => exact keeps_relock_iff h
  | tryWait => exact iff_of_true (fun s' hstep => Option.some.inj hstep ▸ h.tryWait) trivial

end

/-- In a run of any threads no unit and no wake-up is lost exactly if every step is careful. -/
theorem no_wake_up_lost_iff (available : Nat) (actions : List SemaphoreAction) :
    Throughout step Keeps (new available) actions ↔ Throughout step Careful (new available) actions :=
  throughout_iff (fun _ action (h : Kept _) => keeps_iff h action)
    (fun _ action s' h hcareful hstep => (keeps_iff h action).mpr hcareful s' hstep) ⟨rfl,by simp [new]⟩ actions

/-- Two threads wait, two units are posted, and the second thread is never woken. -/
theorem second_waiter_left : ¬Throughout step Keeps (new 0) [.wait,.wait,.post,.post,.relock] := by
  rintro ⟨-,hrun⟩
  have hrelock := ((((hrun _ rfl).2 _ rfl).2 _ rfl).2 _ rfl).1
  exact (hrelock _ rfl).wakeUps (by decide)

/-- Whatever the threads do, each unit is left, has completed a wait or went with an overflow of the value. -/
theorem units_accounted {available : Nat} (h : Reaches step anyAction (new available) s) :
    ∃ overflows, s.value + s.completed + 2 ^ 64 * overflows = s.units := by
  induction h with
  | refl => exact ⟨0,rfl⟩
  | @tail before after action _ _ hstep ih =>
    obtain ⟨overflows,ih⟩ := ih
    have hadd (i : Nat) : ∃ overflows, (before.add i).value + before.completed + 2 ^ 64 * overflows =
        before.units + i := ⟨overflows + (before.value + i) / 2 ^ 64,by simp only [add]; omega⟩
    have hwait (s : FastSemaphore) (hs : s.value + s.completed + 2 ^ 64 * overflows = s.units) :
        s.wait.value + s.wait.completed + 2 ^ 64 * overflows = s.wait.units ∧
          s.tryWait.value + s.tryWait.completed + 2 ^ 64 * overflows = s.tryWait.units := by
      rw [wait,tryWait]
      split
      · exact ⟨hs,hs⟩
      · dsimp only
        omega
    cases action with
    | post =>
      cases hstep
      simp only [post,notifyOne]
      split_ifs <;> exact hadd 1
    | postN i =>
      cases hstep
      simp only [postN,notifyAll]
      split <;> exact hadd i
    | wait =>
      cases hstep
      exact ⟨_,(hwait before ih).1⟩
    | relock =>
      rw [step] at hstep
      split at hstep <;> cases hstep
      exact ⟨_,(hwait {before with notified := before.notified - 1} ih).1⟩
    | tryWait =>
      cases hstep
      exact ⟨_,(hwait before ih).2⟩

/-- The value overflows twice; a thread that was blocked takes one of the units. -/
theorem units_accounted_of_overflow : ∃ s, Reaches step anyAction (new (2 ^ 64 - 1)) s ∧ s.value = 0 ∧
    s.completed = 1 ∧ s.units = 2 ^ 65 + 1 ∧ ∃ overflows, s.value + s.completed + 2 ^ 64 * overflows = s.units := by
  obtain ⟨s,hreach,hvalue,hcompleted,hunits⟩ : ∃ s, Reaches step anyAction (new (2 ^ 64 - 1)) s ∧ s.value = 0 ∧
      s.completed = 1 ∧ s.units = 2 ^ 65 + 1 :=
    exists_of_runActions [.post,.wait,.postN (2 ^ 64 - 1),.relock,.post,.post,.tryWait] (by decide +kernel)
  exact ⟨s,hreach,hvalue,hcompleted,hunits,units_accounted hreach⟩

end FastSemaphore
end FepParticipant.Base
